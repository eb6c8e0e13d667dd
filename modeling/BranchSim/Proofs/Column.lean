import BranchSim.Column
import BranchSim.Json.Text

namespace BranchSim

theorem append_inj_of_stops {P : Char → Bool} {l l' r r' : List Char} (all : ∀ c ∈ l, P c)
    (all' : ∀ c ∈ l', P c) (stops : ∀ c ∈ r.head?, P c = false)
    (stops' : ∀ c ∈ r'.head?, P c = false) (same : l ++ r = l' ++ r') : l = l' ∧ r = r' := by
  have front {l r : List Char} (all : ∀ c ∈ l, P c) (stops : ∀ c ∈ r.head?, P c = false) :
      (l ++ r).takeWhile P = l := by
    rw [List.takeWhile_append_of_pos all]
    cases r with
    | nil => simp
    | cons c r => simp [stops c rfl]
  have first : l = l' := by
    rw [← front all stops, same, front all' stops']
  subst first
  exact ⟨rfl, List.append_cancel_left same⟩

namespace Column

abbrev OneLine (l : String) : Prop :=
  '\n' ∉ l.toList

def split (text : String) : List String :=
  (text.toList.splitOn '\n').dropLast.map String.ofList

@[simp] theorem lines_nil : lines [] = "" := rfl

theorem toList_lines_cons (l : String) (ls : List String) :
    (lines (l :: ls)).toList = l.toList ++ '\n' :: (lines ls).toList := by
  simp [lines]

theorem splitOn_lines {ls : List String} (single : ∀ l ∈ ls, OneLine l) :
    (lines ls).toList.splitOn '\n' = ls.map String.toList ++ [[]] := by
  induction ls with
  | nil => rfl
  | cons l ls ih =>
      obtain ⟨here, later⟩ := List.forall_mem_cons.1 single
      rw [toList_lines_cons, List.splitOn_append_cons_self_of_not_mem here, ih later]
      rfl

theorem split_lines {ls : List String} (single : ∀ l ∈ ls, OneLine l) : split (lines ls) = ls := by
  rw [split, splitOn_lines single, List.dropLast_concat, List.map_map]
  simp

theorem lines_injOn {ls ls' : List String} (single : ∀ l ∈ ls, OneLine l)
    (single' : ∀ l ∈ ls', OneLine l) (same : lines ls = lines ls') : ls = ls' := by
  rw [← split_lines single, same, split_lines single']

theorem exists_digit_of_mem_toDigits {b n : Nat} (base : 1 < b) {c : Char}
    (member : c ∈ Nat.toDigits b n) : ∃ d < b, c = d.digitChar := by
  induction n using Nat.strongRecOn with
  | ind n ih =>
      rw [Nat.toDigits_eq_if base] at member
      split at member
      · rename_i small
        exact ⟨n, small, List.mem_singleton.1 member⟩
      · rename_i large
        rcases List.mem_append.1 member with front | last
        · exact ih (n / b) (Nat.div_lt_self (by omega) base) front
        · exact ⟨n % b, Nat.mod_lt _ (by omega), List.mem_singleton.1 last⟩

theorem hexDigit?_digitChar : ∀ d < 16, Json.hexDigit? d.digitChar = some d := by
  decide

theorem hex?_concat {cs : List Char} {n d : Nat} (front : Json.hex? cs = some n) (small : d < 16) :
    Json.hex? (cs ++ [d.digitChar]) = some (16 * n + d) := by
  rw [Json.hex?] at front ⊢
  rw [List.foldlM_append, front]
  simp [hexDigit?_digitChar d small]

theorem hex?_replicate_append (zeros : Nat) (cs : List Char) :
    Json.hex? (List.replicate zeros '0' ++ cs) = Json.hex? cs := by
  induction zeros with
  | zero => rfl
  | succ zeros ih =>
      rw [← ih]
      rfl

theorem hex?_toDigits (n : Nat) : Json.hex? (Nat.toDigits 16 n) = some n := by
  induction n using Nat.strongRecOn with
  | ind n ih =>
      rw [Nat.toDigits_eq_if (by decide)]
      split
      · rename_i small
        exact (hex?_concat rfl small : Json.hex? ([] ++ _) = _).trans (by simp)
      · rename_i large
        rw [hex?_concat (ih (n / 16) (by omega)) (Nat.mod_lt _ (by decide)), Nat.div_add_mod]

theorem toList_hex (digits n : Nat) : ∃ zeros, (hex digits n).toList =
    '0' :: 'x' :: (List.replicate zeros '0' ++ Nat.toDigits 16 n) := by
  refine ⟨digits - (Nat.toDigits 16 n).length, ?_⟩
  simp [hex, List.leftpad]

theorem solid_digitChar : ∀ d < 16, d.digitChar ≠ ' ' ∧ d.digitChar ≠ '\n' := by
  decide

theorem solid_hex (digits n : Nat) : ∀ c ∈ (hex digits n).toList, c ≠ ' ' ∧ c ≠ '\n' := by
  obtain ⟨zeros, text⟩ := toList_hex digits n
  intro c member
  rw [text, List.mem_cons, List.mem_cons, List.mem_append] at member
  rcases member with rfl | rfl | zero | digit
  · decide
  · decide
  · obtain rfl := List.eq_of_mem_replicate zero
    decide
  · obtain ⟨d, small, rfl⟩ := exists_digit_of_mem_toDigits (by decide) digit
    exact solid_digitChar d small

theorem hex_append_inj {digits n n' : Nat} {r r' : List Char}
    (same : (hex digits n).toList ++ ' ' :: r = (hex digits n').toList ++ ' ' :: r') :
    n = n' ∧ r = r' := by
  have solid (n : Nat) : ∀ c ∈ (hex digits n).toList, (c != ' ') = true := fun c member =>
    bne_iff_ne.2 (solid_hex digits n c member).1
  obtain ⟨front, rest⟩ := append_inj_of_stops (solid n) (solid n') (by simp) (by simp) same
  obtain ⟨zeros, text⟩ := toList_hex digits n
  obtain ⟨zeros', text'⟩ := toList_hex digits n'
  rw [text, text'] at front
  have value := congrArg Json.hex? (List.cons.inj (List.cons.inj front).2).2
  rw [hex?_replicate_append, hex?_replicate_append, hex?_toDigits, hex?_toDigits] at value
  exact ⟨Option.some.inj value, (List.cons.inj rest).2⟩

theorem toList_left (width : Nat) (s : String) :
    (left width s).toList = s.toList ++ List.replicate (width - s.length) ' ' := by
  rw [left, String.toList_append]
  exact congrArg _ String.toList_ofList

theorem isDigit_of_mem_toString (n : Nat) : ∀ c ∈ (toString n).toList, c.isDigit := by
  intro c member
  rw [Nat.toString_eq_repr, Nat.toList_repr] at member
  exact Nat.isDigit_of_mem_toDigits (by decide) (Nat.le_refl 10) member

theorem toString_injective {n n' : Nat} (same : (toString n).toList = (toString n').toList) :
    n = n' := by
  rw [Nat.toString_eq_repr, Nat.toString_eq_repr, Nat.toList_repr, Nat.toList_repr] at same
  rw [← Nat.ofDigitChars_ten_toDigits (n := n), same, Nat.ofDigitChars_ten_toDigits]

theorem left_append_inj {width n n' : Nat} {r r' : List Char}
    (same : (left width (toString n)).toList ++ ' ' :: r =
      (left width (toString n')).toList ++ ' ' :: r') : n = n' ∧ r = r' := by
  have stops (blanks : Nat) (r : List Char) :
      ∀ c ∈ (List.replicate blanks ' ' ++ ' ' :: r).head?, c.isDigit = false := by
    cases blanks <;> simp [List.replicate_succ]
  rw [toList_left, toList_left, List.append_assoc, List.append_assoc] at same
  obtain ⟨digits, rest⟩ := append_inj_of_stops (isDigit_of_mem_toString n)
    (isDigit_of_mem_toString n') (stops _ _) (stops _ _) same
  obtain rfl := toString_injective digits
  exact ⟨rfl, (List.cons.inj (List.append_cancel_left rest)).2⟩

end Column

end BranchSim
