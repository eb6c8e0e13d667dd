import BranchSim.Proofs.Json.Layout
import BranchSim.Proofs.Json.Spelling

/-!
# Values that are skipped

`Value` are the texts of JSON, nested as deeply as one likes. Each of them is skipped in full:
either at once, or by opening a bracket and passing what follows it, for which `Passes` tells how
the open brackets and the rest of the text change together.
-/

namespace BranchSim.Json

open Format

def RawKey (k content : List Char) : Prop :=
  Inside content ∧ k = '"' :: (content ++ ['"'])

inductive Value : List Char → Prop
  | word {w : String} (known : w ∈ ["null", "true", "false"]) : Value w.toList
  | number {s : List Char} (number : Number s) : Value s
  | text {s : List Char} (inside : Inside s) : Value ('"' :: (s ++ ['"']))
  | array {texts items : List (List Char)} {s : List Char} (enclosed : Enclosed '[' ']' texts s)
    (padded : List.Forall₂ (Padded Eq) texts items) (each : ∀ v ∈ items, Value v) : Value s
  | object {texts : List (List Char)} {members : List (List Char × List Char)} {s : List Char}
    (enclosed : Enclosed '{' '}' texts s) (padded : List.Forall₂ (MemberText RawKey) texts members)
    (each : ∀ m ∈ members, Value m.2) : Value s

theorem solid_of_number {c : Char} (lead : c = '-' ∨ c.isDigit) :
    isBlank c = false ∧ c ≠ ']' ∧ c ≠ '[' ∧ c ≠ '{' ∧ c ≠ '"' ∧ c ≠ 'n' ∧ c ≠ 't' ∧ c ≠ 'f' := by
  rcases lead with rfl | digit
  · decide
  · have blank (d : Char) (other : d.isDigit = false) : decide (c = d) = false :=
      decide_eq_false (ne_of_isDigit digit other)
    refine ⟨?_, ?_, ?_, ?_, ?_, ?_, ?_, ?_⟩
    · simp only [isBlank, blank ' ' rfl, blank '\n' rfl, blank '\t' rfl, blank '\r' rfl]
      rfl
    all_goals exact ne_of_isDigit digit rfl

theorem Value.starts {v : List Char} (value : Value v) : Starts v := by
  cases value with
  | word known =>
      simp only [List.mem_cons, List.not_mem_nil, or_false] at known
      rcases known with rfl | rfl | rfl <;> exact ⟨_, _, rfl, rfl, by decide⟩
  | number number =>
      obtain ⟨c, cs, rfl, lead⟩ := number.loose.starts
      exact ⟨c, cs, rfl, (solid_of_number lead).1, (solid_of_number lead).2.1⟩
  | text => exact ⟨_, _, rfl, rfl, by decide⟩
  | array enclosed => exact starts_enclosed rfl (by decide) enclosed
  | object enclosed => exact starts_enclosed rfl (by decide) enclosed

theorem skipStart_blank {b : List Char} (blank : Blank b) (s : List Char) :
    skipStart (b ++ s) = skipStart s := by
  rw [skipStart, skipStart, skipBlanks_append blank]

theorem skipStart_number {c : Char} (lead : c = '-' ∨ c.isDigit) (cs : List Char) :
    skipStart (c :: cs) = (none, ·.2) <$> Literal.read .malformed (c :: cs) := by
  obtain ⟨solid, -, array, object, quote, n, t, f⟩ := solid_of_number lead
  unfold skipStart
  rw [skipBlanks_cons solid]
  split <;> rename_i here
  · cases here
  · exact absurd (List.cons.inj here).1 array
  · exact absurd (List.cons.inj here).1 object
  · exact absurd (List.cons.inj here).1 quote
  · exact absurd (List.cons.inj here).1 n
  · exact absurd (List.cons.inj here).1 t
  · exact absurd (List.cons.inj here).1 f
  · obtain ⟨rfl, rfl⟩ := List.cons.inj here
    exact if_pos lead

theorem skipKey_append {k content : List Char} (key : RawKey k content) {b : List Char}
    (blank : Blank b) (s : List Char) : skipKey (k ++ (b ++ ':' :: s)) = .ok s := by
  obtain ⟨inside, rfl⟩ := key
  have read := skipText_of_inside inside (b ++ ':' :: s)
  rw [List.cons_append, List.append_assoc, List.singleton_append, skipKey, read]
  exact readColon_blank blank s

/-- With `opened` brackets open, skipping passes the text `s` and has `opened'` open before what
follows. The rounds it may take suffice for the text and leave enough for the rest. -/
def Passes (first : Bool) (opened opened' : List Bracket) (s rest : List Char) : Prop :=
  ∀ bound : List Char, (s ++ rest).length ≤ bound.length →
    ∃ bound' : List Char, rest.length ≤ bound'.length ∧
      skipOpen bound first opened (s ++ rest) = skipOpen bound' false opened' rest

inductive Skipped (v rest : List Char) : Prop
  | flat (start : skipStart (v ++ rest) = .ok (none, rest)) : Skipped v rest
  | nested {bracket : Bracket} {body : List Char}
    (start : skipStart (v ++ rest) = .ok (some bracket, body ++ rest))
    (shorter : body.length < v.length)
    (passes : ∀ opened, Passes true (bracket :: opened) opened body rest) : Skipped v rest

section Brackets

variable {bracket : Bracket} {outer : List Bracket}

theorem skipOpen_blank {b : List Char} (blank : Blank b) (bound : List Char) (first : Bool)
    (s : List Char) :
    skipOpen bound first (bracket :: outer) (b ++ s) =
      skipOpen bound first (bracket :: outer) s := by
  cases bound with
  | nil => rfl
  | cons _ bound => rw [skipOpen, skipOpen, readNext_blank blank]

theorem Passes.after_blank {first : Bool} {opened : List Bracket} {s rest : List Char}
    (passes : Passes first (bracket :: outer) opened s rest) {b : List Char} (blank : Blank b) :
    Passes first (bracket :: outer) opened (b ++ s) rest := by
  intro bound room
  rw [List.append_assoc, List.length_append] at room
  rw [List.append_assoc, skipOpen_blank blank]
  exact passes bound (Nat.le_of_add_left_le room)

theorem Passes.trans {first : Bool} {opened opened' opened'' : List Bracket}
    {s t rest : List Char} (start : Passes first opened opened' s (t ++ rest))
    (later : Passes false opened' opened'' t rest) :
    Passes first opened opened'' (s ++ t) rest := by
  intro bound room
  rw [List.append_assoc] at room ⊢
  obtain ⟨bound', room', started⟩ := start bound room
  rw [started]
  exact later bound' room'

theorem solid_closing (bracket : Bracket) : isBlank bracket.closing = false := by
  cases bracket <;> rfl

theorem passes_closing (first : Bool) (rest : List Char) :
    Passes first (bracket :: outer) outer [bracket.closing] rest := by
  intro bound room
  obtain ⟨_, bound, rfl⟩ := List.exists_cons_of_length_pos (Nat.zero_lt_of_lt room)
  have next := readNext_close (solid_closing bracket) first rest
  refine ⟨bound, Nat.le_of_succ_le_succ room, ?_⟩
  rw [List.singleton_append, skipOpen, next]
  rfl

def goOn (bound : List Char) (opened : List Bracket) :
    Option Bracket × List Char → Except Fault (List Char)
  | (none, s) => skipOpen bound false opened s
  | (some inner, s) => skipOpen bound true (inner :: opened) s

theorem Skipped.passes {v rest : List Char} (skipped : Skipped v rest) {bound : List Char}
    (room : (v ++ rest).length ≤ bound.length + 1) (solid : v ≠ []) (opened : List Bracket) :
    ∃ bound' : List Char, rest.length ≤ bound'.length ∧
      skipStart (v ++ rest) >>= goOn bound opened = skipOpen bound' false opened rest := by
  have positive := List.length_pos_iff.2 solid
  rw [List.length_append] at room
  cases skipped with
  | flat start =>
      refine ⟨bound, by omega, ?_⟩
      rw [start]
      rfl
  | @nested inner body start shorter passes =>
      have inside : (body ++ rest).length ≤ bound.length := by
        rw [List.length_append]
        omega
      obtain ⟨bound', room', passed⟩ := passes opened bound inside
      refine ⟨bound', room', ?_⟩
      rw [start]
      exact passed

theorem passes_joined {texts : List (List Char)}
    (each : ∀ t ∈ texts, ∀ first rest, Ends rest →
      Passes first (bracket :: outer) (bracket :: outer) (separator first ++ t) rest)
    (first : Bool) (rest : List Char) :
    Passes first (bracket :: outer) outer (joined first texts ++ [bracket.closing]) rest := by
  induction texts generalizing first with
  | nil => exact passes_closing first rest
  | cons t texts ih =>
      obtain ⟨here, later⟩ := List.forall_mem_cons.1 each
      have closes : bracket.closing = ']' ∨ bracket.closing = '}' := by
        cases bracket
        · exact .inl rfl
        · exact .inr rfl
      have ends : Ends ((joined false texts ++ [bracket.closing]) ++ rest) := by
        rw [List.append_assoc]
        exact ends_joined (ends_closing closes rest) texts
      rw [joined, ← List.append_assoc, List.append_assoc _ (joined false texts)]
      exact (here first _ ends).trans (ih later false)

theorem passes_enclosed {opening : Char} {texts : List (List Char)} {s rest : List Char}
    (enclosed : Enclosed opening bracket.closing texts s)
    (start : ∀ t, skipStart (opening :: t) = .ok (some bracket, t))
    (each : ∀ outer, ∀ t ∈ texts, ∀ first rest, Ends rest →
      Passes first (bracket :: outer) (bracket :: outer) (separator first ++ t) rest) :
    Skipped s rest := by
  obtain ⟨b, blank, rfl⟩ := enclosed
  refine .nested (start _) (Nat.lt_succ_self _) fun outer => ?_
  exact (passes_joined (each outer) true rest).after_blank blank

end Brackets

theorem passes_element {bracket : Bracket} {outer : List Bracket} {first : Bool}
    {t b v b' rest e : List Char} (blank : Blank b) (blank' : Blank b') (solid : v ≠ [])
    (skipped : Skipped v (b' ++ rest)) (within : v.length + b'.length ≤ t.length)
    (next : readNext bracket.closing first (separator first ++ (t ++ rest)) = .ok (.element e))
    (keyed : (if bracket = .object then skipKey e else .ok e) = .ok (b ++ (v ++ (b' ++ rest)))) :
    Passes first (bracket :: outer) (bracket :: outer) (separator first ++ t) rest := by
  intro bound room
  have positive := List.length_pos_iff.2 solid
  simp only [List.length_append] at room
  obtain ⟨_, bound, rfl⟩ := List.exists_cons_of_length_pos (by omega : 0 < bound.length)
  have enough : (v ++ (b' ++ rest)).length ≤ bound.length + 1 := by
    simp only [List.length_append, List.length_cons] at room ⊢
    omega
  obtain ⟨bound', room', passed⟩ := skipped.passes enough solid (bracket :: outer)
  rw [List.length_append] at room'
  rw [skipOpen_blank blank', ← skipStart_blank blank] at passed
  refine ⟨bound', Nat.le_of_add_left_le room', ?_⟩
  rw [← passed, List.append_assoc, skipOpen]
  simp only [next, bind, Except.bind]
  by_cases object : bracket = .object
  · rw [if_pos object] at keyed ⊢
    simp only [keyed]
    rfl
  · rw [if_neg object] at keyed ⊢
    obtain rfl := Except.ok.inj keyed
    rfl

theorem passes_item {outer : List Bracket} {t v : List Char} (padded : Padded Eq t v)
    (starts : Starts v) (skipped : ∀ rest, Ends rest → Skipped v rest) (first : Bool)
    {rest : List Char} (ends : Ends rest) :
    Passes first (.array :: outer) (.array :: outer) (separator first ++ t) rest := by
  obtain ⟨b, v, b', blank, rfl, blank', rfl⟩ := padded
  have here := skipped (b' ++ rest) (ends.of_blank blank')
  have solid := starts.ne_nil
  obtain ⟨c, cs, rfl, visible, inside⟩ := starts
  have next := readNext_item (by decide : ',' ≠ ']') blank visible inside first (cs ++ (b' ++ rest))
  refine passes_element blank_nil blank' solid here ?_ ?_ (if_neg nofun)
  · simp only [List.length_append]
    omega
  · simp only [List.append_assoc, List.cons_append]
    exact next

theorem passes_member {outer : List Bracket} {t v content : List Char}
    (member : MemberText RawKey t (content, v)) (starts : Starts v)
    (skipped : ∀ rest, Ends rest → Skipped v rest) (first : Bool) {rest : List Char}
    (ends : Ends rest) :
    Passes first (.object :: outer) (.object :: outer) (separator first ++ t) rest := by
  obtain ⟨_, _, ⟨b, k, b', blank, key, blank', rfl⟩, ⟨d, v, d', blank_d, rfl, blank_d', rfl⟩,
    rfl⟩ := member
  have here := skipped (d' ++ rest) (ends.of_blank blank_d')
  have keyed := skipKey_append key blank' (d ++ (v ++ (d' ++ rest)))
  obtain ⟨-, rfl⟩ := key
  have next := readNext_item (by decide : ',' ≠ '}') blank (by decide : isBlank '"' = false)
    (by decide) first ((content ++ ['"']) ++ (b' ++ ':' :: (d ++ (v ++ (d' ++ rest)))))
  refine passes_element blank_d blank_d' starts.ne_nil here ?_ ?_ ((if_pos rfl).trans keyed)
  · simp only [List.length_append, List.length_cons]
    omega
  · simp only [List.append_assoc, List.cons_append] at next ⊢
    exact next

theorem Value.skipped {v : List Char} (value : Value v) {rest : List Char} (ends : Ends rest) :
    Skipped v rest := by
  induction value generalizing rest with
  | word known =>
      simp only [List.mem_cons, List.not_mem_nil, or_false] at known
      rcases known with rfl | rfl | rfl <;> exact .flat rfl
  | number number =>
      obtain ⟨l, read, -⟩ := Literal.read_number .malformed number ends
      obtain ⟨c, cs, rfl, lead⟩ := number.loose.starts
      refine .flat ?_
      rw [List.cons_append, skipStart_number lead, ← List.cons_append, read]
      rfl
  | @text s inside =>
      refine .flat ?_
      have read := skipText_of_inside inside rest
      rw [List.cons_append, List.append_assoc, List.singleton_append]
      simp only [skipStart, skipBlanks_cons (show isBlank '"' = false from rfl), read]
      rfl
  | @array texts items s enclosed padded each ih =>
      have closed : Enclosed '[' Bracket.array.closing texts s := enclosed
      refine passes_enclosed closed (fun t => rfl) fun outer t member => ?_
      obtain ⟨v, here, related⟩ := exists_of_forall₂ padded t member
      exact fun first rest ends =>
        passes_item related (each v here).starts (fun rest ends => ih v here ends) first ends
  | @object texts members s enclosed padded each ih =>
      have closed : Enclosed '{' Bracket.object.closing texts s := enclosed
      refine passes_enclosed closed (fun t => rfl) fun outer t member => ?_
      obtain ⟨m, here, related⟩ := exists_of_forall₂ padded t member
      exact fun first rest ends =>
        passes_member related (each m here).starts (fun rest ends => ih m here ends) first ends

theorem skipValue_append {v : List Char} (value : Value v) {b : List Char} (blank : Blank b)
    {rest : List Char} (ends : Ends rest) : skipValue (b ++ (v ++ rest)) = .ok rest := by
  unfold skipValue
  rw [skipStart_blank blank]
  cases value.skipped ends with
  | flat start =>
      rw [start]
      rfl
  | @nested bracket body start _ passes =>
      obtain ⟨bound, -, passed⟩ := passes [] (body ++ rest) (Nat.le_refl _)
      rw [start]
      simp only [bind, Except.bind, passed]
      cases bound <;> rfl

end BranchSim.Json
