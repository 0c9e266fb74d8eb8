import FormulaLang.Proofs.Tree.Hole

/-!
Surgery on layouts.  Each operation on a tree changes a few slots; the statements here say what it
makes of a layout around the place where it is done.  Everything else that the tree holds stays.
-/

namespace FormulaLang

namespace Tree.Has

variable {t : Tree} {S : Slots} {path : Path} {id : NodeId} {token : Token} {l r : Layout}

-- The slot of the focus, apart from those around it.
theorem site_node (path : Path) (id : NodeId) (token : Token) (l r : Layout) :
    path.site (.node id token l r) =
      {(id, ⟨token, path.up?, l.root?, r.root?⟩)}
        + (l.slots (some id) + r.slots (some id) + path.slots (some id)) :=
  path.hole.site_node id token l r

theorem parent? (h : t.Has (path.site (.node id token l r) + S)) : t.parent? id = path.up? :=
  path.hole.parent? h

theorem token? (h : t.Has (path.site (.node id token l r) + S)) : t.token? id = some token :=
  path.hole.token? h

theorem left? (h : t.Has (path.site (.node id token l r) + S)) : t.left? id = l.root? :=
  path.hole.left? h

theorem right? (h : t.Has (path.site (.node id token l r) + S)) : t.right? id = r.root? :=
  path.hole.right? h

-- Exchanging the token of the focus.
theorem setToken (h : t.Has (path.site (.node id token l r) + S)) (token' : Token) :
    (t.setToken id token').Has (path.site (.node id token' l r) + S) := by
  rw [site_node, add_assoc] at h ⊢
  exact h.modify _

-- The first step of a path leads to an operator with the focus on one side only.
theorem other_ne (s : Step) (rest : Path)
    (h : t.Has (Path.site (s :: rest) (.node id token l r) + S)) : s.other.root? ≠ some id := by
  have first : t.Has ({(id, ⟨token, Path.up? (s :: rest), l.root?, r.root?⟩)}
      + (Path.slots (some id) (s :: rest) + (l.slots (some id) + r.slots (some id) + S))) :=
    h.congr (by rw [site_node]; abel)
  exact first.other_ne_of_step

-- The focus becomes the left operand of a new operator, which takes its place and awaits its
-- right operand.
theorem usurp {current : NodeId} {operator : Token}
    (h : t.Has ((Layout.leaf current operator).slots none
      + (path.site (.node id token l r) + S))) :
    (t.usurp current id).Has
      (Path.site (⟨current, operator, true, .node id token l r⟩ :: path) .absent + S) :=
  path.hole.usurp h

-- A layout takes the place of the focus, which stays without a parent.
theorem replace {new : NodeId} {newToken : Token} {l' r' : Layout}
    (h : t.Has ((Layout.node new newToken l' r').slots none
      + (path.site (.node id token l r) + S))) :
    (t.replace new id).Has
      (path.site (.node new newToken l' r') + ((Layout.node id token l r).slots none + S)) :=
  path.hole.replace h

-- A layout becomes the right operand of an operator that awaits one.
theorem append {s : Step} {rest : Path} (right : s.onRight = true)
    (h : t.Has ((Layout.node id token l r).slots none + (Path.site (s :: rest) .absent + S))) :
    ∃ t', t.append s.id id = .ok t' ∧ t'.size = t.size ∧
      t'.Has (Path.site (s :: rest) (.node id token l r) + S) :=
  rest.hole.append right h

end Tree.Has

/-! ## Edits, one after the other -/

namespace Edit

variable {α β : Type}

theorem apply_bind (m : Edit α) (f : α → Edit β) (t : Tree) :
    (m >>= f).apply t =
      match m.apply t with
      | (.ok a, t) => (f a).apply t
      | (.error e, t) => (.error e, t) := by
  simp only [apply, ExceptT.run_bind, StateT.run_bind]
  rcases StateT.run (ExceptT.run m) t with ⟨r, t'⟩
  cases r <;> rfl

theorem apply_bind_ok {m : Edit α} {t t' : Tree} {a : α} (h : m.apply t = (.ok a, t'))
    (f : α → Edit β) : (m >>= f).apply t = (f a).apply t' := by
  rw [apply_bind, h]

theorem apply_bind_error {m : Edit α} {t t' : Tree} {e : Failure}
    (h : m.apply t = (.error e, t')) (f : α → Edit β) : (m >>= f).apply t = (.error e, t') := by
  rw [apply_bind, h]

@[simp] theorem apply_pure (a : α) (t : Tree) : (pure a : Edit α).apply t = (.ok a, t) :=
  rfl

@[simp] theorem apply_get (t : Tree) : (get : Edit Tree).apply t = (.ok t, t) :=
  rfl

@[simp] theorem apply_set (t t' : Tree) : (set t' : Edit Unit).apply t = (.ok (), t') :=
  rfl

@[simp] theorem apply_ofExcept (r : Except Failure α) (t : Tree) :
    (ofExcept r).apply t = (r, t) :=
  rfl

theorem apply_surgery {f : Tree → Except Failure Tree} {t t' : Tree} (h : f t = .ok t') :
    (surgery f).apply t = (.ok (), t') := by
  show (Edit.apply (do set (← ofExcept (f t))) t) = _
  rw [h]
  rfl

end Edit

end FormulaLang
