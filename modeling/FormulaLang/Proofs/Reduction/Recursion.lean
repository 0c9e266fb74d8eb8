import FormulaLang.Proofs.Reduction.Thinned
import FormulaLang.Proofs.Scanning.Slices

/-!
Reading by recursion on raw text.  Raw text is shorter than the text around it, so reading a text
never comes to the bound that it is given, and it is what the reading of its parts says.
-/

namespace FormulaLang

namespace Term

/-- The raw texts in a term. -/
def raws : Term → List String
  | absent => []
  | node token left right => token.raw?.toList ++ (left.raws ++ right.raws)

-- What is alike to raw text is raw text.
theorem Alike.raws {related : String → String → Prop} {t t' : Term} (h : t.Alike related t') :
    ∀ raw' ∈ t'.raws, ∃ raw ∈ t.raws, related raw raw' := by
  induction h with
  | absent => nofun
  | @node token token' ht left left' right right' _ _ ihl ihr =>
      intro raw' mem
      rcases List.mem_append.mp mem with here | mem
      · cases ht with
        | @same token expanded =>
            cases token with
            | group | magnitude => cases expanded
            | number | var | name | operator => cases here
        | group h | magnitude h =>
            cases List.mem_singleton.mp here
            exact ⟨_, .head _, h⟩
      · rcases List.mem_append.mp mem with mem | mem
        · obtain ⟨raw, among, h⟩ := ihl raw' mem
          exact ⟨raw, List.mem_append_right _ (List.mem_append_left _ among), h⟩
        · obtain ⟨raw, among, h⟩ := ihr raw' mem
          exact ⟨raw, List.mem_append_right _ (List.mem_append_right _ among), h⟩

theorem settle_congr {expand expand' : String → Except Failure Tree} {token : Token}
    (same : ∀ raw ∈ token.raw?, expand raw = expand' raw) (left right : Term) :
    settle expand token left right = settle expand' token left right := by
  cases token with
  | group raw | magnitude raw => rw [settle, settle, same raw rfl]
  | number | var | name | operator => rfl

/-- A term is reduced alike by two readings of the raw texts in it. -/
theorem reduce_congr {expand expand' : String → Except Failure Tree} {t : Term}
    (same : ∀ raw ∈ t.raws, expand raw = expand' raw) : t.reduce expand = t.reduce expand' := by
  induction t with
  | absent => rfl
  | node token left right ihl ihr =>
      have here : ∀ raw ∈ token.raw?, expand raw = expand' raw := fun raw mem =>
        same raw (List.mem_append_left _ (Option.mem_toList.mpr mem))
      rw [reduce, reduce,
        ihl fun raw mem => same raw (List.mem_append_right _ (List.mem_append_left _ mem)),
        ihr fun raw mem => same raw (List.mem_append_right _ (List.mem_append_right _ mem))]
      refine bind_congr fun left => bind_congr fun right => ?_
      exact settle_congr here left right

end Term

namespace Expression

/-- Raw text is shorter than the text that it is in. -/
theorem length_of_raws {text : String} {term : Term}
    (built : build text = .ok (Tree.empty.plant term)) :
    ∀ raw ∈ term.raws, raw.length < text.length := by
  obtain ⟨term', built', alike⟩ := build_thinned (.refl _) built
  have same : term' = term := by
    rw [built] at built'
    rw [← Tree.Has.term_plant term', ← Except.ok.inj built', Tree.Has.term_plant]
  intro raw mem
  obtain ⟨-, -, -, shorter⟩ := alike.raws raw (same ▸ mem)
  exact shorter

theorem parseWithin_empty (depth : Nat) :
    parseWithin depth "" = .error (Failure.within (Text.trim "") (.reading .emptyFormula)) := by
  cases depth <;> rfl

theorem parseWithin_error {text : String} {e : Failure} (failed : build text = .error e)
    (depth : Nat) :
    parseWithin (depth + 1) text = .error (Failure.within (Text.trim text) e) := by
  rw [parseWithin, failed]
  rfl

theorem rooted_parse : Reduction.Rooted parse :=
  fun raw => rooted_parseWithin raw.length raw

/-- No bound that a text does not exceed has a part in the reading of it. -/
theorem parseWithin_eq {depth depth' : Nat} {text : String} (enough : text.length ≤ depth)
    (enough' : text.length ≤ depth') : parseWithin depth text = parseWithin depth' text := by
  induction depth generalizing depth' text with
  | zero =>
      rw [String.length_eq_zero_iff.mp (Nat.le_zero.mp enough), parseWithin_empty,
        parseWithin_empty]
  | succ depth ih =>
      cases depth' with
      | zero =>
          rw [String.length_eq_zero_iff.mp (Nat.le_zero.mp enough'), parseWithin_empty,
            parseWithin_empty]
      | succ depth' =>
          cases built : build text with
          | error e => rw [parseWithin_error built, parseWithin_error built]
          | ok t =>
              obtain ⟨term, there, rfl⟩ := build_planted built
              rw [parseWithin_succ (rooted_parseWithin depth) there built,
                parseWithin_succ (rooted_parseWithin depth') there built]
              have same : term.reduce (parseWithin depth) = term.reduce (parseWithin depth') := by
                refine Term.reduce_congr fun raw mem => ih ?_ ?_ <;>
                  have := length_of_raws built raw mem <;> omega
              rw [same]

/-- A text is parsed by building it and reducing what is built, its raw texts parsed in turn. -/
theorem parse_eq (text : String) :
    parse text = (do
      let t ← build text
      let (root, t) := reduce t Tree.first
      return t.compact (← root)).mapError (Failure.within (Text.trim text)) := by
  rw [parse, parseWithin_eq (Nat.le_refl _) (Nat.le_succ _)]
  cases built : build text with
  | error e =>
      rw [parseWithin_error built]
      rfl
  | ok t =>
      obtain ⟨term, there, rfl⟩ := build_planted built
      have same : term.reduce (parseWithin text.length) = term.reduce parse :=
        Term.reduce_congr fun raw mem =>
          parseWithin_eq (Nat.le_of_lt (length_of_raws built raw mem)) (Nat.le_refl _)
      rw [parseWithin_succ (rooted_parseWithin _) there built, same,
        ← Tree.reduce_plant rooted_parse there]
      rfl

/-- Reading tokens always advances in the text, and ends at its end only.  A text that is read to
its end is slices that spell its tokens, names stand before what they are applied to, and raw text
is shorter than the text; so parsing, by recursion on raw text, comes to an end. -/
theorem readings_of_text (text : String) :
    (∀ count c, c = Cursor.afterReading count (Cursor.ofText text) →
      c.IsWithin text
      ∧ (∀ token after, c.token = (.ok (some token), after) →
          c.offset < after.offset ∧ after.IsWithin text)
      ∧ (∀ after, c.token = (.ok none, after) → ∀ ch ∈ c.rest, Text.isBlank ch = true))
    ∧ ((Scan.ofText text).failure? = none →
      Scan.Yields (Cursor.ofText text) (Scan.ofText text).lexemes)
    ∧ (∀ lexemes, Scan.Yields (Cursor.ofText text) lexemes →
      Scan.Slices 0 text.toList lexemes
      ∧ (∀ lexeme ∈ lexemes, lexeme.token ≠ .operator .negate
          ∧ lexeme.token ≠ .operator .transform)
      ∧ (∀ front name back, lexemes.map Lexeme.token = front ++ .name name :: back →
          Grammar.isCall back = true)
      ∧ ∀ lexeme ∈ lexemes, ∀ raw ∈ lexeme.token.raw?, raw.length < text.length)
    ∧ (∀ depth, text.length ≤ depth → parseWithin depth text = parse text)
    ∧ parse text = (do
        let t ← build text
        let (root, t) := reduce t Tree.first
        return t.compact (← root)).mapError (Failure.within (Text.trim text)) := by
  refine ⟨?_, Scan.yields_ofText, fun lexemes yields => ?_,
    fun depth enough => parseWithin_eq enough (Nat.le_refl _), parse_eq text⟩
  · rintro count c rfl
    have within := Cursor.isWithin_afterReading text count
    refine ⟨within, fun token after read => ⟨Cursor.offset_lt_of_token read, ?_⟩,
      fun after => Cursor.blank_of_token⟩
    have moved := Cursor.reaches_token (Cursor.afterReading count (Cursor.ofText text))
    rw [read] at moved
    exact within.reaches moved
  · have slices := Scan.slices_of_yields yields
    have spoken := yields.cutUp.spoken
    refine ⟨slices, fun lexeme mem => ?_, fun front name back split => ?_,
      fun lexeme mem raw => slices.raw_length lexeme mem raw⟩
    · have among : lexeme.token ∈ lexemes.map Lexeme.token := List.mem_map_of_mem mem
      constructor <;> intro same <;> rw [same] at among <;> cases spoken.isBinary among
    · rw [split] at spoken
      exact spoken.isCall_of_name

end Expression

end FormulaLang
