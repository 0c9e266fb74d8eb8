import FormulaLang.Proofs.Building.Spine
import FormulaLang.Proofs.Tree.Links

/-!
The builder keeps a spine.  Each token does to the spine that a tree shows what it does to the spine
as plain data, and is refused for the same reason; a refused token leaves the spine as it was.  Apart
from the tree that shows the spine there are only nodes without links.
-/

namespace FormulaLang

/-- A step shows an operator that waits for its right operand.  A `-` without a left operand is
no subtraction any more. -/
structure Step.Fits (step : Step) (f : Pending) : Prop where
  token : step.token = .operator f.op
  onRight : step.onRight = true
  left : step.other.term = f.left
  proper : f.left = .absent → f.op ≠ .subtract

/-- A tree shows a spine, with the token placed last at `last`, besides other slots. -/
inductive Tree.Shows (t : Tree) (S : Slots) : NodeId → Spine → Prop where
  | awaiting {step : Step} {path : Path} {f : Pending} {pending : List Pending}
      (fits : step.Fits f) (above : List.Forall₂ Step.Fits path pending)
      (held : t.Has (Path.site (step :: path) .absent + S)) :
      Shows t S step.id ⟨f :: pending, none⟩
  | operand {path : Path} {pending : List Pending} {id : NodeId} {token : Token}
      (above : List.Forall₂ Step.Fits path pending) (plain : token.operation? = none)
      (held : t.Has (path.site (.leaf id token) + S)) :
      Shows t S id ⟨pending, some token⟩

namespace Spine

theorem close_climb (op : Operation) (pending : List Pending) (t : Term) :
    close (climb op pending t).1 (climb op pending t).2 = close pending t := by
  induction pending generalizing t with
  | nil => rfl
  | cons f rest ih =>
    rw [climb]
    split
    · exact ih _
    · rfl

theorem size_close (pending : List Pending) (t : Term) :
    (close pending t).size = (close pending .absent).size + t.size := by
  induction pending generalizing t with
  | nil => simp [close, Term.size]
  | cons f rest ih =>
    rw [close, close, ih, ih (.node (.operator f.op) f.left .absent)]
    simp only [Term.size]
    omega

end Spine

namespace Tree.Has

variable {t : Tree} {S : Slots} {path : Path} {id : NodeId} {token : Token} {l r : Layout}

-- The slot of an operator that awaits its operand.
theorem awaiting {step : Step} {f : Pending} (fits : step.Fits f)
    (h : t.Has (Path.site (step :: path) .absent + S)) :
    t.node? step.id = some ⟨.operator f.op, Path.up? path, step.other.root?, none⟩ := by
  have slot : step.node (Path.up? path) none =
      ⟨.operator f.op, Path.up? path, step.other.root?, none⟩ := by
    unfold Step.node
    rw [if_pos fits.onRight, fits.token]
  have first : t.Has ({(step.id, step.node (Path.up? path) none)}
      + (step.other.slots (some step.id) + Path.slots (some step.id) path + S)) := by
    refine h.congr ?_
    unfold Path.site
    rw [Path.slots]
    show 0 + ({(step.id, step.node (Path.up? path) none)} + _) + S = _
    abel
  rw [first.node?, slot]

theorem focus (h : t.Has (path.site (.node id token l r) + S)) :
    t.node? id = some ⟨token, path.up?, l.root?, r.root?⟩ := by
  rw [site_node, add_assoc] at h
  exact h.node?

end Tree.Has

namespace Builder

variable {t : Tree} {S : Slots} {path : Path} {pending : List Pending} {id : NodeId} {token : Token}
  {l r : Layout}

/-! ## Attaching -/

-- An operator that is ready takes its right operand.
theorem apply_attach {step : Step} {f : Pending} {current : NodeId} {token : Token} {l r : Layout}
    (fits : step.Fits f) (ready : Spine.ready (f :: pending) = .ok ())
    (h : t.Has ((Layout.node current token l r).slots none
      + (Path.site (step :: path) .absent + S))) :
    ∃ t', (attach step.id current).apply t = (.ok (), t') ∧ t'.size = t.size ∧
      t'.Has (Path.site (step :: path) (.node current token l r) + S) := by
  have slot := Tree.Has.awaiting fits h.right
  obtain ⟨t', appended, size, held⟩ := h.append fits.onRight
  refine ⟨t', ?_, size, held⟩
  have last : (Edit.surgery fun t => t.append step.id current).apply t = (.ok (), t') :=
    Edit.apply_surgery appended
  unfold attach
  rw [Edit.apply_bind_ok (Edit.apply_get t)]
  have leftLink : t.left? step.id = step.other.root? := by
    rw [Tree.left?, slot]
    rfl
  have operation : t.operation? step.id = some f.op := by
    rw [Tree.operation?, Tree.token?, slot]
    rfl
  rw [leftLink, operation]
  cases other : step.other with
  | node => exact last
  | absent =>
    have absent : f.left = .absent := by rw [← fits.left, other]; rfl
    obtain ⟨op, left⟩ := f
    cases absent
    have negates : op = .negate := by
      by_contra other
      rw [Spine.ready, if_neg other] at ready
      cases ready
    subst negates
    exact last

-- An operator other than `-` that has no left operand takes no right one.
theorem apply_attach_error {step : Step} {f : Pending} {current : NodeId} {e : Failure}
    (fits : step.Fits f) (refused : Spine.ready (f :: pending) = .error e)
    (h : t.Has (Path.site (step :: path) .absent + S)) :
    (attach step.id current).apply t = (.error e, t) := by
  have slot := Tree.Has.awaiting fits h
  have leftLink : t.left? step.id = step.other.root? := by
    rw [Tree.left?, slot]
    rfl
  have operation : t.operation? step.id = some f.op := by
    rw [Tree.operation?, Tree.token?, slot]
    rfl
  unfold Spine.ready at refused
  split at refused
  case h_2 => cases refused
  case h_1 op rest same =>
    cases same
    split at refused
    case isTrue => cases refused
    case isFalse other =>
      cases refused
      have noLeft : step.other.root? = none := Layout.root?_eq_none.mpr fits.left
      have proper := fits.proper rfl
      unfold attach
      rw [Edit.apply_bind_ok (Edit.apply_get t), leftLink, operation, noLeft]
      cases op with
      | subtract => exact absurd rfl proper
      | negate => exact absurd rfl other
      | _ => rfl

/-! ## Climbing -/

-- Climbing stops at the place where the spine has completed the same operators.
theorem climb_spec (op : Operation) {id : NodeId} {token : Token} {l r : Layout} {count : Nat}
    (h : t.Has (path.site (.node id token l r) + S)) (above : List.Forall₂ Step.Fits path pending)
    (enough : path.length ≤ count) :
    ∃ (path' : Path) (token' : Token) (l' r' : Layout), List.Forall₂ Step.Fits path'
        (Spine.climb op pending (.node token l.term r.term)).1 ∧
      (Layout.node (climb t op count id) token' l' r').term =
        (Spine.climb op pending (.node token l.term r.term)).2 ∧
      path.site (.node id token l r) = path'.site (.node (climb t op count id) token' l' r') := by
  induction above generalizing id token l r count with
  | nil =>
    have top : t.parent? id = none := Tree.Has.parent? h
    have here : climb t op count id = id := by
      cases count with
      | zero => rfl
      | succ count => rw [climb, top]
    rw [here]
    exact ⟨[], token, l, r, .nil, rfl, rfl⟩
  | @cons step f rest pending fits above ih =>
    -- the path is no longer than the count, so a link that is left can be followed
    obtain ⟨count, rfl⟩ : ∃ c, count = c + 1 := ⟨count - 1, by simp at enough; omega⟩
    have parent : t.parent? id = some step.id := Tree.Has.parent? h
    have filled : step.fill (.node id token l r) =
        .node step.id (.operator f.op) step.other (.node id token l r) := by
      rw [Step.fill, if_pos fits.onRight, fits.token]
    have up : t.Has (Path.site rest (.node step.id (.operator f.op) step.other
        (.node id token l r)) + S) := by
      rw [← filled, ← Path.site_cons]
      exact h
    have operation : t.operation? step.id = some f.op := by
      rw [Tree.operation?, Tree.token?, up.focus]
      rfl
    rw [climb, parent]
    simp only [operation]
    by_cases tighter : op.precedence ≤ f.op.precedence
    · rw [if_pos tighter, Spine.climb, if_pos tighter, Path.site_cons, filled, ← fits.left]
      exact ih up (Nat.le_of_succ_le_succ enough)
    · rw [if_neg tighter, Spine.climb, if_neg tighter]
      exact ⟨step :: rest, token, l, r, .cons fits above, rfl, rfl⟩

theorem length_le_size (h : t.Has (path.site (.node id token l r) + S)) :
    path.length ≤ t.size := by
  have most := h.left.card_le_size
  have long := path.length_le_card_slots (some id)
  unfold Path.site at most
  rw [Multiset.card_add] at most
  exact Nat.le_trans long (Nat.le_trans (Nat.le_add_left _ _) most)

/-! ## Placing operators and operands -/

theorem isAwaiting_of_awaiting {step : Step} {f : Pending} (fits : step.Fits f)
    (h : t.Has (Path.site (step :: path) .absent + S)) : t.isAwaiting step.id = true := by
  rw [Tree.isAwaiting, Tree.Has.awaiting fits h]
  rfl

theorem isAwaiting_of_operand {id : NodeId} {token : Token} (plain : token.operation? = none)
    (h : t.Has (path.site (.leaf id token) + S)) : t.isAwaiting id = false := by
  rw [Tree.isAwaiting, Tree.Has.focus h, Option.any_some, Node.isAwaiting, plain]
  rfl

/-- A run of an edit that places a fresh node follows a step of the spine.  Both succeed, and the
tree shows the new spine, to which this node belongs and every other that was added; or both refuse
for the same reason, and at most the token of the fresh node changes. -/
def Follows {α : Type} (m : Edit α) (t : Tree) (S : Slots) (fresh : NodeId) (s : Spine)
    (last : α → NodeId) (r : Except Failure Spine) : Prop :=
  match r with
  | .ok s' => ∃ t' a, m.apply t = (.ok a, t') ∧ t'.Shows S (last a) s'
      ∧ t'.size + s.whole.size + 1 = t.size + s'.whole.size
  | .error e => ∃ token, m.apply t = (.error e, t.setToken fresh token)

-- Where an operand is awaited, a minus sign becomes a negation and any other operator is refused.
theorem follows_placeOperator_awaiting {current : NodeId} {op : Operation} {step : Step}
    {f : Pending} (fits : step.Fits f) (above : List.Forall₂ Step.Fits path pending)
    (held : t.Has (Path.site (step :: path) .absent
      + ((Layout.leaf current (.operator op)).slots none + S))) :
    Follows (placeOperator step.id current op) t S current ⟨f :: pending, none⟩
      (fun _ => current) ((Spine.mk (f :: pending) none).placeOperator op) := by
  have waits := isAwaiting_of_awaiting fits held
  have fresh : t.Has ((Layout.leaf current (.operator op)).slots none
      + (Path.site (step :: path) .absent + S)) := held.congr (add_left_comm _ _ _)
  unfold Follows Spine.placeOperator
  dsimp only
  by_cases minus : op = .subtract ∨ op = .negate
  · rw [if_pos minus]
    have negated : (t.setToken current (.operator .negate)).Has
        ((Layout.leaf current (.operator .negate)).slots none
          + (Path.site (step :: path) .absent + S)) := fresh.modify _
    have runs : (placeOperator step.id current op).apply t =
        (attach step.id current).apply (t.setToken current (.operator .negate)) := by
      unfold placeOperator
      rw [Edit.apply_bind_ok (Edit.apply_get t), if_pos waits, if_pos minus]
      exact Edit.apply_bind_ok (Edit.apply_set _ _) _
    cases ready : Spine.ready (f :: pending) with
    | error e =>
      exact ⟨.operator .negate, runs.trans (apply_attach_error fits ready negated.right)⟩
    | ok _ =>
      obtain ⟨t', attached, size, held'⟩ := apply_attach fits ready negated
      refine ⟨t', (), runs.trans attached, ?_, ?_⟩
      case refine_2 =>
        show t'.size + (Spine.close (f :: pending) .absent).size + 1
          = t.size + (Spine.close (f :: pending) (.node (.operator .negate) .absent .absent)).size
        rw [size, Tree.setToken, Tree.size_modify, Spine.size_close _ (.node _ _ _)]
        simp only [Term.size]
        omega
      have fitted : Step.Fits ⟨current, .operator .negate, true, .absent⟩ ⟨.negate, .absent⟩ :=
        ⟨rfl, rfl, rfl, fun _ => by decide⟩
      refine .awaiting fitted (.cons fits above) ?_
      rw [Path.site_cons]
      exact held'
  · rw [if_neg minus]
    have own : t.token? current = some (.operator op) := by
      rw [Tree.token?, Tree.Has.node? fresh]
      rfl
    refine ⟨.operator op, ?_⟩
    rw [Tree.setToken_self own]
    unfold placeOperator
    rw [Edit.apply_bind_ok (Edit.apply_get t), if_pos waits, if_neg minus]
    rfl

theorem follows_placeOperator {last current : NodeId} {s : Spine} {op : Operation}
    (h : t.Shows ((Layout.leaf current (.operator op)).slots none + S) last s) :
    Follows (placeOperator last current op) t S current s (fun _ => current)
      (s.placeOperator op) := by
  cases h with
  | awaiting fits above held => exact follows_placeOperator_awaiting fits above held
  | @operand path pending _ token above plain held =>
    have waits := isAwaiting_of_operand plain held
    obtain ⟨path', token', l', r', above', term, same⟩ :=
      climb_spec op held above (length_le_size held)
    have fresh : t.Has ((Layout.leaf current (.operator op)).slots none
        + (path'.site (.node (climb t op t.size last) token' l' r') + S)) := by
      rw [← same]
      exact held.congr (add_left_comm _ _ _)
    unfold placeOperator
    refine ⟨t.usurp current (climb t op t.size last), (), ?_, ?_, ?_⟩
    · rw [Edit.apply_bind_ok (Edit.apply_get t), waits]
      rfl
    · refine .awaiting ⟨rfl, rfl, term, fun absent => ?_⟩ above' fresh.usurp
      have whole := term.trans absent
      cases whole
    · show _ + (Spine.close pending (.leaf token)).size + 1 = _ + (Spine.close
        (Spine.climb op pending (.leaf token)).1
          (.node (.operator op) (Spine.climb op pending (.leaf token)).2 .absent)).size
      rw [Tree.size_usurp, ← Spine.close_climb op pending, Spine.size_close _ (.node _ _ _),
        Spine.size_close _ (Spine.climb op pending (.leaf token)).2]
      simp only [Term.size]
      omega

-- A node that is added changes no spine.
theorem shows_add {last : NodeId} {s : Spine} (h : t.Shows S last s) (token : Token) :
    (t.add token).Shows ((Layout.leaf t.size token).slots none + S) last s := by
  cases h with
  | awaiting fits above held =>
    exact .awaiting fits above ((held.add token).congr (add_left_comm _ _ _))
  | operand above plain held =>
    exact .operand above plain ((held.add token).congr (add_left_comm _ _ _))

theorem follows_attach {last current : NodeId} {token : Token} (plain : token.operation? = none)
    (h : t.Shows ((Layout.leaf current token).slots none + S) last ⟨pending, none⟩) :
    Follows (attach last current) t S current ⟨pending, none⟩ (fun _ => current)
      ((Spine.ready pending).map fun _ => ⟨pending, some token⟩) := by
  cases h with
  | @awaiting step path f pending fits above held =>
    have fresh := held.congr (add_left_comm _ _ _)
    cases ready : Spine.ready (f :: pending) with
    | error e =>
      have own : t.token? current = some token := by
        rw [Tree.token?, Tree.Has.node? fresh]
        rfl
      refine ⟨token, ?_⟩
      rw [Tree.setToken_self own]
      exact apply_attach_error fits ready held
    | ok _ =>
      obtain ⟨t', attached, size, held'⟩ := apply_attach fits ready fresh
      refine ⟨t', (), attached, .operand (.cons fits above) plain held', ?_⟩
      show t'.size + (Spine.close (f :: pending) .absent).size + 1
        = t.size + (Spine.close (f :: pending) (.leaf token)).size
      rw [size, Spine.size_close _ (.leaf token)]
      simp only [Term.leaf, Term.size]
      omega

theorem climb_ne_absent {op : Operation} {u : Term} (h : u ≠ .absent) :
    (Spine.climb op pending u).2 ≠ .absent := by
  induction pending generalizing u with
  | nil => exact h
  | cons f rest ih =>
    rw [Spine.climb]
    split
    · exact ih nofun
    · exact h

theorem ready_of_left {op : Operation} {left : Term} (h : left ≠ .absent) :
    Spine.ready (⟨op, left⟩ :: pending) = .ok () := by
  cases left with
  | absent => exact absurd rfl h
  | node => rfl

-- An operand after another one comes with an operator between them.
theorem follows_placeWith {last current : NodeId} {earlier token : Token} (op : Operation)
    (plain : token.operation? = none)
    (h : t.Shows ((Layout.leaf current token).slots none + S) last ⟨pending, some earlier⟩) :
    Follows (placeWith op last current) t S current ⟨pending, some earlier⟩ (fun _ => current)
      (((Spine.mk pending (some earlier)).placeOperator op).map fun s =>
        { s with operand? := some token }) := by
  obtain ⟨t', _, placed, shown, size⟩ := follows_placeOperator (shows_add h (.operator op))
  have ready : Spine.ready (⟨op, (Spine.climb op pending (.leaf earlier)).2⟩ ::
      (Spine.climb op pending (.leaf earlier)).1) = .ok () :=
    ready_of_left (climb_ne_absent nofun)
  have attached := follows_attach plain shown
  rw [ready] at attached
  obtain ⟨t'', _, attached, shown', size'⟩ := attached
  refine ⟨t'', (), ?_, shown', ?_⟩
  · unfold placeWith
    rw [Edit.apply_bind_ok (Edit.apply_get t), Edit.apply_bind_ok (Edit.apply_set _ _),
      Edit.apply_bind_ok placed]
    exact attached
  · rw [Tree.size_add] at size
    dsimp only at size size' ⊢
    omega

theorem Follows.congr {α : Type} {m m' : Edit α} {t : Tree} {fresh : NodeId} {s : Spine}
    {last : α → NodeId} {r : Except Failure Spine} (runs : m.apply t = m'.apply t)
    (h : Follows m' t S fresh s last r) : Follows m t S fresh s last r := by
  unfold Follows at h ⊢
  rw [runs]
  exact h

-- The token of the fresh node may be exchanged before.
theorem Follows.after_setToken {α : Type} {m m' : Edit α} {t : Tree} {fresh : NodeId} {s : Spine}
    {last : α → NodeId} {r : Except Failure Spine}
    (runs : m.apply t = m'.apply (t.setToken fresh token))
    (h : Follows m' (t.setToken fresh token) S fresh s last r) : Follows m t S fresh s last r := by
  cases r with
  | ok s' =>
    obtain ⟨t', a, placed, shown, size⟩ := h
    rw [Tree.setToken, Tree.size_modify] at size
    exact ⟨t', a, runs.trans placed, shown, size⟩
  | error e =>
    obtain ⟨token', refused⟩ := h
    rw [Tree.setToken_setToken] at refused
    exact ⟨token', runs.trans refused⟩

-- What is only returned changes no tree.
theorem Follows.returning {m : Edit Unit} {t : Tree} {fresh : NodeId} {s : Spine}
    {current : NodeId} {r : Except Failure Spine}
    (h : Follows m t S fresh s (fun _ => current) r) :
    Follows (do m; return current) t S fresh s (fun placed => placed) r := by
  cases r with
  | ok s' =>
    obtain ⟨t', _, placed, shown, size⟩ := h
    exact ⟨t', current, Edit.apply_bind_ok placed _, shown, size⟩
  | error e =>
    obtain ⟨token, refused⟩ := h
    exact ⟨token, Edit.apply_bind_error refused _⟩

theorem follows_placeOperand {last current : NodeId} {s : Spine} {token : Token}
    (plain : token.operation? = none)
    (h : t.Shows ((Layout.leaf current token).slots none + S) last s) :
    Follows (placeOperand last current) t S current s (fun _ => current)
      (s.placeOperand token .multiply) := by
  cases h with
  | @awaiting step path f pending fits above held =>
    have waits := isAwaiting_of_awaiting fits held
    refine Follows.congr ?_ (follows_attach plain (.awaiting fits above held))
    unfold placeOperand
    rw [Edit.apply_bind_ok (Edit.apply_get t), if_pos waits]
  | operand above earlier held =>
    have waits := isAwaiting_of_operand earlier held
    refine Follows.congr ?_ (follows_placeWith .multiply plain (.operand above earlier held))
    unfold placeOperand
    rw [Edit.apply_bind_ok (Edit.apply_get t), waits]
    rfl

/-! ## Placing texts -/

theorem awaitsKey_of_awaiting {step : Step} {f : Pending} (fits : step.Fits f)
    (h : t.Has (Path.site (step :: path) .absent + S)) :
    awaitsKey t step.id = f.op.isAccess := by
  rw [awaitsKey, isAwaiting_of_awaiting fits h, Tree.operation?, Tree.token?,
    Tree.Has.awaiting fits h]
  rfl

theorem isUnderAccess_of_operand {id : NodeId} {token : Token}
    (above : List.Forall₂ Step.Fits path pending) (h : t.Has (path.site (.leaf id token) + S)) :
    isUnderAccess t id = (pending.head?.any fun f => f.op.isAccess) := by
  have parent : t.parent? id = path.up? := Tree.Has.parent? h
  rw [isUnderAccess, parent]
  cases above with
  | nil => rfl
  | @cons step f rest pending fits above =>
    have up : t.Has (Path.site rest (.node step.id (.operator f.op) step.other
        (.leaf id token)) + S) := by
      have filled : step.fill (.leaf id token) =
          .node step.id (.operator f.op) step.other (.leaf id token) := by
        rw [Step.fill, if_pos fits.onRight, fits.token]
      rw [← filled, ← Path.site_cons]
      exact h
    show ((t.operation? step.id).any _) = _
    rw [Tree.operation?, Tree.token?, up.focus]
    rfl

section

variable {current : NodeId} {token : Token} {text : String}

-- Where an operand is awaited, a text is placed as one, and after an access as a key.
theorem follows_placeText_awaiting (plain : token.operation? = none) {step : Step} {f : Pending}
    (fits : step.Fits f) (above : List.Forall₂ Step.Fits path pending)
    (held : t.Has (Path.site (step :: path) .absent
      + ((Layout.leaf current token).slots none + S))) :
    Follows (placeText step.id current text) t S current ⟨f :: pending, none⟩
      (fun placed => placed) ((Spine.mk (f :: pending) none).placeText token text) := by
  have lastToken : t.token? step.id = some (.operator f.op) := by
    rw [Tree.token?, Tree.Has.awaiting fits held]
    rfl
  have key := awaitsKey_of_awaiting fits held
  have runs : (placeText step.id current text).apply t =
      (do placeOperand step.id current; return current : Edit NodeId).apply
        (if f.op.isAccess then t.setToken current (.name text) else t) := by
    unfold placeText
    rw [Edit.apply_bind_ok (Edit.apply_get t), lastToken, key]
    cases f.op.isAccess <;> rfl
  have under : (Spine.mk (f :: pending) none).isUnderAccess = f.op.isAccess := rfl
  cases access : f.op.isAccess with
  | false =>
    rw [access] at runs under
    have placed := follows_placeOperand plain (.awaiting fits above held)
    have same : (Spine.mk (f :: pending) none).placeText token text =
        (Spine.mk (f :: pending) none).placeOperand token .multiply := by
      rw [Spine.placeText, under]
    rw [same]
    exact placed.returning.congr runs
  | true =>
    rw [access] at runs under
    have named : (t.setToken current (.name text)).Has (Path.site (step :: path) .absent
        + ((Layout.leaf current (.name text)).slots none + S)) :=
      ((held.congr (add_left_comm _ _ _)).modify _).congr (add_left_comm _ _ _)
    have unplaced : Token.operation? (.name text) = none := rfl
    have placed := follows_placeOperand unplaced (.awaiting fits above named)
    have same : (Spine.mk (f :: pending) none).placeText token text =
        (Spine.mk (f :: pending) none).placeOperand (.name text) .multiply := by
      rw [Spine.placeText, under]
    rw [same]
    exact placed.returning.after_setToken runs

/-- A text joins the name placed last, and its own node stays without links. -/
def Joins (m : Edit NodeId) (t : Tree) (S : Slots) (fresh : NodeId) (s : Spine)
    (r : Except Failure Spine) : Prop :=
  ∃ s' t' last token, r = .ok s' ∧ m.apply t = (.ok last, t')
    ∧ t'.Shows ((Layout.leaf fresh token).slots none + S) last s'
    ∧ t'.size = t.size ∧ s'.whole.size = s.whole.size

-- A text behind the key of an access is merged with it, and any other is an operand of its own.
theorem follows_placeText_operand (plain : token.operation? = none) {last : NodeId}
    {earlier : Token} (earlierPlain : earlier.operation? = none)
    (above : List.Forall₂ Step.Fits path pending)
    (held : t.Has (path.site (.leaf last earlier)
      + ((Layout.leaf current token).slots none + S))) :
    Follows (placeText last current text) t S current ⟨pending, some earlier⟩
      (fun placed => placed) ((Spine.mk pending (some earlier)).placeText token text)
    ∨ Joins (placeText last current text) t S current ⟨pending, some earlier⟩
      ((Spine.mk pending (some earlier)).placeText token text) := by
  have lastToken : t.token? last = some earlier := by
    rw [Tree.token?, Tree.Has.focus held]
    rfl
  have under : isUnderAccess t last = (Spine.mk pending (some earlier)).isUnderAccess :=
    isUnderAccess_of_operand above held
  have key : awaitsKey t last = false := by
    rw [awaitsKey, isAwaiting_of_operand earlierPlain held]
    rfl
  -- a name below an access is its key
  by_cases merged : ∃ name, earlier = .name name ∧
      (Spine.mk pending (some earlier)).isUnderAccess = true
  · obtain ⟨name, rfl, access⟩ := merged
    have same : (Spine.mk pending (some (.name name))).placeText token text =
        .ok ⟨pending, some (.name (name ++ text))⟩ := by
      rw [Spine.placeText, access]
    refine .inr ⟨_, t.setToken last (.name (name ++ text)), last, token, same, ?_,
      .operand above rfl (held.setToken (.name (name ++ text))), ?_, ?_⟩
    · unfold placeText
      rw [Edit.apply_bind_ok (Edit.apply_get t), lastToken, under, access]
      rfl
    · exact Tree.size_modify _ _ _
    · show (Spine.close pending (.leaf _)).size = (Spine.close pending (.leaf _)).size
      rw [Spine.size_close, Spine.size_close _ (.leaf (.name name))]
      rfl
  · have same : (Spine.mk pending (some earlier)).placeText token text =
        (Spine.mk pending (some earlier)).placeOperand token .multiply := by
      unfold Spine.placeText
      split
      case h_1 earlier' here access =>
        cases here
        exact absurd ⟨_, rfl, access⟩ merged
      case h_2 here _ => cases here
      case h_3 => rfl
    have runs : (placeText last current text).apply t =
        (do placeOperand last current; return current : Edit NodeId).apply t := by
      unfold placeText
      rw [Edit.apply_bind_ok (Edit.apply_get t), lastToken, under]
      split
      case h_1 earlier' here access =>
        cases here
        exact absurd ⟨_, rfl, access⟩ merged
      case h_2 =>
        rw [key]
        rfl
    rw [same]
    have placed := follows_placeOperand plain (.operand above earlierPlain held)
    exact .inl (placed.returning.congr runs)

theorem follows_placeText {last : NodeId} {s : Spine} (isText : token.text? = some text)
    (h : t.Shows ((Layout.leaf current token).slots none + S) last s) :
    Follows (placeText last current text) t S current s (fun placed => placed)
      (s.placeText token text)
    ∨ Joins (placeText last current text) t S current s (s.placeText token text) := by
  have plain : token.operation? = none := by
    cases token <;> first | rfl | cases isText
  cases h with
  | awaiting fits above held => exact .inl (follows_placeText_awaiting plain fits above held)
  | operand above earlierPlain held => exact follows_placeText_operand plain earlierPlain above held

end

/-! ## Placing tokens -/

theorem token?_of_shows {last : NodeId} {s : Spine} (h : t.Shows S last s) :
    (t.token? last).any Token.isText = s.operand?.any Token.isText := by
  cases h with
  | awaiting fits above held =>
    rw [Tree.token?, Tree.Has.awaiting fits held]
    rfl
  | operand above plain held =>
    rw [Tree.token?, Tree.Has.focus held]
    rfl

-- A group or magnitude is the argument of the text before it.
theorem follows_placeArgument {last current : NodeId} {s : Spine} {token : Token}
    (plain : token.operation? = none)
    (h : t.Shows ((Layout.leaf current token).slots none + S) last s) :
    Follows (do
        if ((← get).token? last).any Token.isText then
          placeWith .transform last current
        else
          placeOperand last current
        return current) t S current s (fun placed => placed)
      (s.placeOperand token (if s.operand?.any Token.isText then .transform else .multiply)) := by
  have isText := token?_of_shows h
  cases after : s.operand?.any Token.isText with
  | false =>
    refine (follows_placeOperand plain h).returning.congr ?_
    rw [Edit.apply_bind_ok (Edit.apply_get t), isText, after]
    rfl
  | true =>
    obtain ⟨pending, operand?⟩ := s
    cases operand? with
    | none => cases after
    | some earlier =>
      refine (follows_placeWith .transform plain h).returning.congr ?_
      rw [Edit.apply_bind_ok (Edit.apply_get t), isText, after]
      rfl

-- Placing a token at the last place does to the spine what the token does.
theorem follows_place {last current : NodeId} {s : Spine} (token : Token)
    (h : t.Shows ((Layout.leaf current token).slots none + S) last s) :
    Follows (place last current token) t S current s (fun placed => placed) (s.place token)
    ∨ Joins (place last current token) t S current s (s.place token) := by
  cases token with
  | operator op => exact .inl (follows_placeOperator h).returning
  | group raw => exact .inl (follows_placeArgument rfl h)
  | magnitude raw => exact .inl (follows_placeArgument rfl h)
  | var text => exact follows_placeText rfl h
  | name text => exact follows_placeText rfl h
  | number x => exact .inl (follows_placeOperand rfl h).returning

/-- A builder that goes on from a spine.  All other nodes have no links. -/
def Shows (b : Builder) (s : Spine) : Prop :=
  ∃ last S, b.last? = some last ∧ b.tree.Shows S last s ∧ S.AreLoose
    ∧ b.tree.size = s.whole.size + S.card

-- A token that is refused is left without links.
theorem Shows.add {b : Builder} {s : Spine} (h : b.Shows s) (token : Token) :
    Shows ⟨b.tree.add token, b.last?⟩ s := by
  obtain ⟨last, S, before, shown, loose, full⟩ := h
  refine ⟨last, _, before, shows_add shown token, loose.add_leaf _ _, ?_⟩
  rw [Tree.size_add, Layout.slots_leaf, Multiset.card_add, Multiset.card_singleton]
  omega

-- A builder accepts the tokens that its spine accepts, and refuses the others for the same
-- reason; then there is one more node without links, and all else stays.
theorem push_of_shows {b : Builder} {s : Spine} (h : b.Shows s) (token : Token) :
    match s.place token with
    | .ok s' => ∃ b', b.push token = (.ok (), b') ∧ b'.Shows s'
    | .error e => ∃ token', b.push token = (.error e, ⟨b.tree.add token', b.last?⟩) := by
  obtain ⟨last, S, before, shown, loose, full⟩ := h
  have placed := follows_place token (shows_add shown token)
  have pushed {r : Except Failure NodeId} {t' : Tree}
      (runs : (place last b.tree.size token).apply (b.tree.add token) = (r, t')) :
      b.push token = match r with
        | .ok last => (.ok (), ⟨t', some last⟩)
        | .error e => (.error e, ⟨t', some last⟩) := by
    rw [push, before]
    simp only [runs]
    cases r <;> rfl
  rcases placed with placed | ⟨s', t', last', token', result, runs, shown', size, whole⟩
  · cases result : s.place token with
    | ok s' =>
      rw [result] at placed
      obtain ⟨t', last', runs, shown', size⟩ := placed
      rw [Tree.size_add] at size
      exact ⟨_, pushed runs, last', S, rfl, shown', loose, by dsimp only; omega⟩
    | error e =>
      rw [result] at placed
      obtain ⟨token', runs⟩ := placed
      rw [Tree.setToken_add] at runs
      refine ⟨token', ?_⟩
      rw [before]
      exact pushed runs
  · rw [result]
    refine ⟨_, pushed runs, last', _, rfl, shown', loose.add_leaf _ _, ?_⟩
    rw [size, whole, Tree.size_add, full, Layout.slots_leaf, Multiset.card_add,
      Multiset.card_singleton]
    omega

-- The first token starts a spine.
theorem push_empty (token : Token) :
    ∃ b, Builder.empty.push token = (.ok (), b) ∧ b.Shows (Spine.start token) := by
  have added : (Tree.empty.add token).Has ((Layout.leaf 0 token).slots none + 0) :=
    (Tree.Has.empty Tree.empty).add token
  have size : (start (Tree.empty.add token) 0 token).size = 1 := by
    unfold start
    split
    · exact Tree.size_modify _ _ _
    · rfl
  have whole : (Spine.start token).whole.size = 1 := by
    cases token with
    | operator op => cases op <;> rfl
    | _ => rfl
  refine ⟨_, rfl, 0, 0, rfl, ?_, Slots.areLoose_zero, size.trans whole.symm⟩
  cases token with
  | operator op =>
    -- a minus sign negates, and any other operator stands without a left operand
    have alone (op' : Operation) (other : op' ≠ .subtract)
        (held : (start (Tree.empty.add (.operator op)) 0 (.operator op)).Has
          ((Layout.leaf 0 (.operator op')).slots none + 0)) :
        (start (Tree.empty.add (.operator op)) 0 (.operator op)).Shows 0 0
          ⟨[⟨op', .absent⟩], none⟩ := by
      have fitted : Step.Fits ⟨0, .operator op', true, .absent⟩ ⟨op', .absent⟩ :=
        ⟨rfl, rfl, rfl, fun _ => other⟩
      refine .awaiting fitted .nil ?_
      rw [Path.site_cons]
      exact held
    cases op with
    | subtract => exact alone .negate nofun (added.modify _)
    | _ => exact alone _ nofun added
  | _ =>
    have bare : List.Forall₂ Step.Fits [] [] := .nil
    exact .operand bare rfl added

/-- Tokens one after the other. -/
theorem pushAll_of_shows {b : Builder} {s : Spine} (h : b.Shows s) (tokens : List Token) :
    match s.run tokens with
    | .ok s' => ∃ b', b.pushAll tokens = .ok b' ∧ b'.Shows s'
    | .error e => b.pushAll tokens = .error e := by
  induction tokens generalizing b s with
  | nil => exact ⟨b, rfl, h⟩
  | cons token rest ih =>
    have pushed := push_of_shows h token
    rw [Spine.run, pushAll]
    cases result : s.place token with
    | error e =>
      rw [result] at pushed
      obtain ⟨token', pushed⟩ := pushed
      rw [pushed]
      rfl
    | ok s' =>
      rw [result] at pushed
      obtain ⟨b', pushed, shown⟩ := pushed
      rw [pushed]
      exact ih shown

/-! ## Finishing -/

-- What an operator of a layout lacks is read off its slots.
theorem findSome?_lacks {L : Layout} {parent? : Option NodeId} (h : t.Has (L.slots parent? + S)) :
    (L.postOrder.findSome? fun id => (t.node? id).bind lacks?) = L.term.lack? := by
  induction L generalizing parent? S with
  | absent => rfl
  | node id token left right hl hr =>
    rw [Layout.slots, add_assoc] at h
    have below := h.right
    rw [add_assoc] at below
    have own : lacks? ⟨token, parent?, left.root?, right.root?⟩ =
        Term.ownLack? token left.term right.term := by
      cases token with
      | operator op =>
        cases right with
        | absent => rfl
        | node id' token' l' r' =>
          cases left with
          | absent =>
            by_cases negates : op = .negate
            · rw [negates]
              rfl
            · simp only [lacks?, Layout.root?, Layout.term, Term.ownLack?, negates, ne_eq,
                not_false_eq_true, Option.isNone_none, Option.isNone_some, and_self, if_true,
                if_false, Bool.false_eq_true]
          | node =>
            simp only [lacks?, Layout.root?, Layout.term, Term.ownLack?, Option.isNone_some,
              Bool.false_eq_true, and_false, if_false]
      | _ => rfl
    have inLeft := hl below
    rw [add_left_comm] at below
    have inRight := hr below
    rw [Layout.postOrder, List.findSome?_append, List.findSome?_append, inLeft, inRight,
      Layout.term, Term.lack?, Option.or_assoc]
    simp only [List.findSome?_cons, List.findSome?_nil, h.node?, Option.bind_some, own]
    cases Term.ownLack? token left.term right.term <;> rfl

theorem term_plug {focus : Layout} (above : List.Forall₂ Step.Fits path pending) :
    (path.plug focus).term = Spine.close pending focus.term := by
  induction above generalizing focus with
  | nil => rfl
  | cons fits above ih =>
    rw [Path.plug, ih, Spine.close, Step.fill, if_pos fits.onRight, Layout.term, fits.left,
      fits.token]

-- The whole layout is below the root above any place in it.
theorem finish_of_held {focus : Layout} {last : NodeId} (held : t.Has (path.site focus + S))
    (above : List.Forall₂ Step.Fits path pending)
    (top : some (t.top last) = (path.plug focus).root?) :
    finish ⟨t, some last⟩ =
      match (Spine.close pending focus.term).lack? with
      | some cause => .error (.reading cause)
      | none => .ok (Tree.empty.plant (Spine.close pending focus.term)) := by
  rw [Path.site_eq_slots_plug] at held
  have lack := findSome?_lacks held
  rw [← term_plug above]
  cases whole : path.plug focus with
  | absent => rw [whole] at top; cases top
  | node root token l r =>
    rw [whole] at top held lack
    have here : t.top last = root := Option.some.inj top
    unfold finish
    dsimp only
    rw [here, held.postOrder, lack, Tree.compact, held.term]
    rfl

-- Whether it awaits an operand or is one, the node placed last has no right operand.
theorem focus_of_shows {last : NodeId} {s : Spine} (h : t.Shows S last s) :
    ∃ (path : Path) (pending : List Pending) (token : Token) (l : Layout),
      List.Forall₂ Step.Fits path pending ∧ (∀ f ∈ pending, f ∈ s.pending)
        ∧ t.Has (path.site (.node last token l .absent) + S)
        ∧ Spine.close pending (.node token l.term .absent) = s.whole
        ∧ (l = .absent ∧ s.operand? = some token
          ∨ ∃ f ∈ s.pending, token = .operator f.op ∧ l.term = f.left) := by
  cases h with
  | @awaiting step path f pending fits above held =>
    rw [Path.site_cons, Step.fill, if_pos fits.onRight, fits.token] at held
    have whole : Spine.close pending (.node (.operator f.op) step.other.term .absent)
        = (Spine.mk (f :: pending) none).whole := by
      rw [fits.left]
      rfl
    exact ⟨path, pending, .operator f.op, step.other, above,
      fun _ => List.mem_cons_of_mem f, held, whole, .inr ⟨f, List.mem_cons_self, rfl, fits.left⟩⟩
  | @operand path pending _ token above plain held =>
    exact ⟨path, pending, token, .absent, above, fun _ mem => mem, held, rfl, .inl ⟨rfl, rfl⟩⟩

/-- A builder finishes what its spine shows. -/
theorem finish_of_shows {b : Builder} {s : Spine} (h : b.Shows s) : b.finish = s.finish := by
  obtain ⟨last, S, before, shown, -⟩ := h
  obtain ⟨t, last?⟩ := b
  obtain rfl : last? = some last := before
  obtain ⟨path, pending, token, l, above, -, held, whole, -⟩ := focus_of_shows shown
  rw [finish_of_held held above held.top, Layout.term, Layout.term, whole]
  rfl

/-- Building a tree token by token is what the spine says. -/
theorem build_eq (tokens : List Token) :
    Builder.empty.pushAll tokens >>= finish = Spine.build tokens := by
  cases tokens with
  | nil => rfl
  | cons token rest =>
    obtain ⟨b, pushed, shown⟩ := push_empty token
    have all := pushAll_of_shows shown rest
    rw [pushAll, pushed, Spine.build]
    dsimp only
    cases result : (Spine.start token).run rest with
    | error e =>
      rw [result] at all
      rw [all]
      rfl
    | ok s =>
      rw [result] at all
      obtain ⟨b', built, shown'⟩ := all
      rw [built]
      exact finish_of_shows shown'

end Builder

end FormulaLang
