import FormulaLang.Proofs.Compilation.Subterms
import FormulaLang.Proofs.Tree.Reading
import FormulaLang.Specification

/-!
The variables that inference counts.  On a term, a variable counts by the side of the operator on
which it stands; the nodes that are counted in a tree are those of the term that it holds, in the
same order, and every variable that evaluation reads is among them.
-/

namespace FormulaLang

/-! ## Terms -/

namespace Token

/-- Whether a variable counts as the left operand. -/
def countsLeft : Token → Bool
  | operator op => op != .transform
  | _ => false

/-- Whether a variable counts as the right operand. -/
def countsRight : Token → Bool
  | operator op => op != .property
  | _ => false

/-- The variables of one token; `inside` tells those of raw text. -/
def counted (inside : Bool → String → List String) (counts : Bool) : Token → List String
  | var v => if counts then [v] else []
  | group raw => inside counts raw
  | magnitude raw => inside true raw
  | _ => []

end Token

namespace Term

/-- The variables of a term that count, operands first; `counts` tells whether the term stands where
a variable does. -/
def counted (inside : Bool → String → List String) (counts : Bool) : Term → List String
  | absent => []
  | node token left right =>
      left.counted inside token.countsLeft ++ right.counted inside token.countsRight
        ++ token.counted inside counts

/-- The variables of a term without raw text. -/
def mentioned (counts : Bool) (t : Term) : List String :=
  t.counted (fun _ _ => []) counts

-- Whatever is evaluated stands where variables count.
theorem mem_mentioned_of_evaluated {t left right : Term} {name : String}
    (h : node (.var name) left right ∈ t.evaluated) : name ∈ t.mentioned true := by
  induction t with
  | absent => cases List.mem_singleton.mp h
  | node token l r ihl ihr =>
      have inLeft (counts : token.countsLeft = true)
          (mem : node (.var name) left right ∈ l.evaluated) :
          name ∈ (node token l r).mentioned true := by
        refine List.mem_append_left _ (List.mem_append_left _ ?_)
        rw [counts]
        exact ihl mem
      have inRight (counts : token.countsRight = true)
          (mem : node (.var name) left right ∈ r.evaluated) :
          name ∈ (node token l r).mentioned true := by
        refine List.mem_append_left _ (List.mem_append_right _ ?_)
        rw [counts]
        exact ihr mem
      have self (same : node (.var name) left right = node token l r) :
          name ∈ (node token l r).mentioned true := by
        cases same
        exact List.mem_append_right _ (List.mem_singleton_self name)
      cases token with
      | operator op =>
          cases op with
          | index =>
              rcases evaluated_index h with same | owner | ⟨key, -⟩
              · exact self same
              · exact inLeft rfl owner
              · exact inRight rfl key
          | negate | transform =>
              unfold evaluated at h
              exact (List.mem_cons.mp h).elim self (inRight rfl)
          | property =>
              unfold evaluated at h
              exact (List.mem_cons.mp h).elim self (inLeft rfl)
          | _ =>
              unfold evaluated at h
              exact (List.mem_cons.mp h).elim self fun mem =>
                (List.mem_append.mp mem).elim (inLeft rfl) (inRight rfl)
      | _ =>
          unfold evaluated at h
          exact self (List.mem_singleton.mp h)

end Term

/-! ## Trees -/

namespace Specification

/-- The variable at a node, if inference counts it. -/
def counted? (t : Tree) (root id : NodeId) : Option String :=
  match t.token? id with
  | some (.var name) => if isOperand t root id then some name else none
  | _ => none

/-- The variables that inference counts, in the order in which it comes to them. -/
def counted (t : Tree) (root : NodeId) : List String :=
  (t.postOrder root).filterMap (counted? t root)

theorem token?_of_counted? {t : Tree} {root id : NodeId} {name : String}
    (h : counted? t root id = some name) : t.token? id = some (.var name) := by
  unfold counted? at h
  split at h
  next found =>
    split at h
    next =>
      cases h
      exact found
    next => cases h
  next => cases h

/-- No variables. -/
def blank : Specification :=
  ⟨"", [], false, List.nodup_nil⟩

theorem infer_eq (t : Tree) (root : NodeId) :
    infer t root = (counted t root).foldl mention blank := by
  rw [counted, List.foldl_filterMap, infer]
  refine congrArg (fun f => List.foldl f blank (t.postOrder root)) ?_
  refine funext fun s => funext fun id => ?_
  unfold counted?
  generalize t.token? id = token?
  match token? with
  | some (.var name) =>
      dsimp only
      split <;> rfl
  | some (.number _) | some (.name _) | some (.operator _) | some (.group _)
  | some (.magnitude _) | none => rfl

theorem variableNames_mention (s : Specification) (name : String) :
    (s.mention name).variableNames
      = if name ∈ s.variableNames then s.variableNames else s.variableNames ++ [name] := by
  show Keyed.keys (Keyed.insertNew name .any s.parameters) = _
  unfold Keyed.insertNew variableNames
  split
  · rfl
  · exact Keyed.keys_append _ _

-- Variables are added in the order in which they are first mentioned.
theorem variableNames_foldl_mention (names : List String) (s : Specification) :
    (names.foldl mention s).variableNames
      = s.variableNames ++ (names.filter fun name => name ∉ s.variableNames).eraseDups := by
  induction names generalizing s with
  | nil => exact (List.append_nil _).symm
  | cons name rest ih =>
      rw [List.foldl_cons, ih, variableNames_mention]
      by_cases known : name ∈ s.variableNames
      · rw [if_pos known, List.filter_cons_of_neg (by simpa using known)]
      · rw [if_neg known, List.filter_cons_of_pos (by simpa using known), List.eraseDups_cons,
          List.append_assoc, List.filter_filter]
        refine congrArg (fun names => s.variableNames ++ name :: List.eraseDups names) ?_
        refine List.filter_congr fun other _ => ?_
        by_cases same : other = name <;> simp [same]

/-- The variables of an inferred specification, each where it is first counted. -/
theorem variableNames_infer (t : Tree) (root : NodeId) :
    (infer t root).variableNames = (counted t root).eraseDups := by
  rw [infer_eq, variableNames_foldl_mention]
  have all : (counted t root).filter (fun name => name ∉ blank.variableNames) = counted t root :=
    List.filter_eq_self.mpr fun name _ => rfl
  rw [all]
  rfl

end Specification

namespace Step

/-- Whether a variable counts from which the step starts. -/
def counts (s : Step) : Bool :=
  if s.onRight then s.token.countsRight else s.token.countsLeft

end Step

namespace Path

/-- Whether a variable counts from which the path starts. -/
def counts : Path → Bool
  | [] => true
  | s :: _ => s.counts

end Path

namespace Tree.Has

open Specification

variable {t : Tree} {S : Slots} {path : Path} {id root : NodeId} {token : Token} {l r : Layout}

-- A node counts by the last step to it.
theorem isOperand_eq (h : t.Has (path.site (.node id token l r) + S))
    (top : t.parent? root = none) : isOperand t root id = path.counts := by
  have parent := h.parent?
  unfold isOperand
  rw [parent]
  cases path with
  | nil => rfl
  | cons s rest =>
      have below : id ≠ root := by
        rintro rfl
        rw [top] at parent
        cases parent
      show (if id = root then true else _) = s.counts
      rw [if_neg below]
      -- the other operand is not the one from which the step starts
      have apart : (s.other.root? == some id) = false := beq_false_of_ne (other_ne s rest h)
      have self : (some id == some id) = true := beq_self_eq_true _
      rw [Path.site_cons] at h
      obtain ⟨above, upper, onRight, other⟩ := s
      cases onRight with
      | true =>
          have h : t.Has (Path.site rest (.node above upper other (.node id token l r)) + S) := h
          rw [Tree.operation?, h.token?, h.left?, h.right?]
          cases upper with
          | operator op => cases op <;> first | rfl | exact apart | exact self
          | _ => rfl
      | false =>
          have h : t.Has (Path.site rest (.node above upper (.node id token l r) other) + S) := h
          rw [Tree.operation?, h.token?, h.left?, h.right?]
          cases upper with
          | operator op => cases op <;> first | rfl | exact apart | exact self
          | _ => rfl

theorem filterMap_counted? (top : t.parent? root = none) (L : Layout) {path : Path} {S : Slots}
    (h : t.Has (path.site L + S)) :
    L.postOrder.filterMap (counted? t root) = L.term.mentioned path.counts := by
  induction L generalizing path S with
  | absent => rfl
  | node id token l r ihl ihr =>
      have atLeft : t.Has (Path.site (⟨id, token, false, r⟩ :: path) l + S) := by
        rw [Path.site_cons]
        exact h
      have atRight : t.Has (Path.site (⟨id, token, true, l⟩ :: path) r + S) := by
        rw [Path.site_cons]
        exact h
      have own : [id].filterMap (counted? t root)
          = token.counted (fun _ _ => []) path.counts := by
        rw [List.filterMap_cons, counted?, h.token?]
        cases token with
        | var name =>
            dsimp only
            rw [h.isOperand_eq top]
            cases path.counts <;> rfl
        | _ => rfl
      rw [Layout.postOrder, List.filterMap_append, List.filterMap_append, ihl atLeft, ihr atRight,
        own]
      rfl

/-- What is counted in a tree that holds a term and nothing else. -/
theorem counted_plant (term : Term) :
    counted (Tree.empty.plant term) Tree.first = term.mentioned true := by
  have held := (Has.empty Tree.empty).plant term
  cases term with
  | absent => rfl
  | node token left right =>
      have read := held.postOrder
      have site : (Tree.empty.plant (.node token left right)).Has
          (Path.site [] (.ofTerm Tree.empty.size (.node token left right)) + 0) :=
        held.congr (by rw [Path.site_eq_slots_plug, Path.plug])
      have top : (Tree.empty.plant (.node token left right)).parent? Tree.first = none :=
        site.parent?
      have counts := filterMap_counted? top _ site
      rw [Layout.term_ofTerm] at counts
      exact (congrArg _ read).trans counts

end Tree.Has

end FormulaLang
