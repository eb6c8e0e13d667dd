import BranchSim.Proofs.Json.Slots

namespace BranchSim.Json

def respelled (slots : List Slot) (key : String) (spelled : List Char → Prop) : List Slot :=
  slots.map fun slot => if slot.key = key then { slot with right := some spelled } else slot

section Respelled

variable {slots before after : List Slot} {slot : Slot} {key : String} {spelled : List Char → Prop}

theorem respelled_of_ne (other : ∀ slot ∈ slots, slot.key ≠ key) :
    respelled slots key spelled = slots :=
  (List.map_congr_left fun slot member => if_neg (other slot member)).trans (List.map_id slots)

theorem respelled_split (front : ∀ slot ∈ before, slot.key ≠ key) (here : slot.key = key)
    (back : ∀ slot ∈ after, slot.key ≠ key) :
    respelled (before ++ slot :: after) key spelled =
      before ++ { slot with right := some spelled } :: after := by
  rw [respelled, List.map_append, List.map_cons, if_pos here]
  exact congrArg₂ _ (respelled_of_ne front) (congrArg _ (respelled_of_ne back))

theorem writes_alone (known : key ∈ slots.map (·.key)) (absent : ∀ slot ∈ slots, slot.right = none)
    (plain : Plain key.toList) {v : List Char} (spells : spelled v) :
    Form.object.Writes (respelled slots key spelled)
      ('{' :: (Format.quoted key ++ ':' :: v ++ ['}'])) := by
  obtain ⟨slot, given, rfl⟩ := List.mem_map.1 known
  refine ⟨_, _, ⟨[], blank_nil, by simp [Format.joined, Format.separator]⟩,
    .cons (Format.memberText_quoted plain v) .nil, ?_, ?_⟩
  · refine List.forall_mem_singleton.2 (.inl ⟨_, List.mem_map_of_mem given, ?_, ?_⟩)
    · rw [if_pos rfl]
    · rw [if_pos rfl]
      exact ⟨spelled, rfl, spells⟩
  · intro other member
    obtain ⟨other, there, rfl⟩ := List.mem_map.1 member
    by_cases same : other.key = slot.key
    · rw [if_pos same, same]
      exact List.count_cons_self
    · rw [if_neg same, absent other there]
      exact List.count_eq_zero.2 fun here => same (String.toList_inj.1 (List.mem_singleton.1 here))

theorem Gives.exists_member {members : Members} (gives : Gives slots members)
    (member : slot ∈ slots) (given : slot.right.isSome) :
    ∃ front v back, members = front ++ (slot.key.toList, v) :: back ∧
      slot.key.toList ∉ front.map (·.1) := by
  have once := gives.once slot member
  rw [if_pos given] at once
  obtain ⟨⟨name, v⟩, there, keyed⟩ := List.mem_map.1 (List.count_pos_iff.1 (once ▸ Nat.one_pos))
  obtain rfl : name = slot.key.toList := keyed
  obtain ⟨front, back, rfl⟩ := List.append_of_mem there
  rw [List.map_append, List.map_cons, List.count_append, List.count_cons_self] at once
  exact ⟨front, v, back, rfl, List.count_eq_zero.1 (by omega)⟩

theorem Sound.holds {v : List Char} (sound : Sound slots (slot.key.toList, v))
    (member : slot ∈ slots) (unique : ∀ other ∈ slots, other.key = slot.key → other = slot) :
    Holds v slot := by
  rcases sound with ⟨other, there, keyed, holds⟩ | ⟨unknown, -⟩
  · exact unique other there (String.toList_inj.1 keyed) ▸ holds
  · exact absurd rfl (unknown slot member)

end Respelled

namespace Format

section Records

variable {ρ : Type} {t : RecordType ρ} {slots before after : List Slot} {changes : List (Change ρ)}
  {f : Field ρ} {spelled : List Char → Prop} {s : List Char}

namespace RecordType.Has

theorem keys (has : t.Has slots changes) : slots.map (·.key) = changes.map (·.key) := by
  rw [← List.forall₂_eq_eq_eq, List.forall₂_map_left_iff, List.forall₂_map_right_iff]
  exact has.fits.imp fun _ _ fits => fits.key

theorem field_unique (has : t.Has slots changes) {m : Change ρ} (known : m ∈ changes)
    (member : f ∈ t.fields) (same : m.key = f.key) : m.field = f := by
  have found := has.known known
  rw [same, has.regular.field?_key member] at found
  exact (Option.some.inj found).symm

theorem exists_around (has : t.Has slots changes) (member : f ∈ t.fields) :
    ∃ before slot after, slots = before ++ slot :: after ∧ slot.key = f.key ∧
      ∀ other ∈ before ++ after, other.key ≠ f.key := by
  rw [← has.all] at member
  obtain ⟨m, known, rfl⟩ := List.mem_map.1 member
  obtain ⟨slot, given, fits⟩ := has.exists_slot known
  obtain ⟨before, after, rfl⟩ := List.append_of_mem given
  have distinct := has.keys ▸ has.distinct
  rw [List.map_append, List.map_cons, List.perm_middle.nodup_iff, List.nodup_cons,
    ← List.map_append] at distinct
  refine ⟨before, slot, after, rfl, fits.key, fun other there same => distinct.1 ?_⟩
  exact List.mem_map.2 ⟨other, there, same.trans fits.key.symm⟩

theorem sound_of_respelled {slot : Slot} {m : List Char × List Char}
    (sound : Sound (before ++ slot :: after) m) (other : slot.key.toList ≠ m.1) (spare : Slot)
    (same : spare.key = slot.key) : Sound (before ++ spare :: after) m := by
  rcases sound with ⟨given, member, keyed, holds⟩ | ⟨unknown, value⟩
  · have apart : given ≠ slot := by
      rintro rfl
      exact other keyed
    refine .inl ⟨given, ?_, keyed, holds⟩
    rw [List.mem_append, List.mem_cons] at member ⊢
    exact member.imp_right fun later => .inr (later.resolve_left apart)
  · refine .inr ⟨fun given member => ?_, value⟩
    rw [List.mem_append, List.mem_cons] at member
    rcases member with front | rfl | back
    · exact unknown given (by simp [front])
    · exact same ▸ other
    · exact unknown given (by simp [back])

end RecordType.Has

variable {slot slot' : Slot}

open RecordType

theorem exists_takes_front (has : t.Has (before ++ slot :: after) changes)
    (same : slot'.key = slot.key) {front back : Members}
    (gives : Gives (before ++ slot' :: after) (front ++ back))
    (fresh : slot.key.toList ∉ front.map (·.1)) :
    ∃ made, t.Takes front made ∧ (made.map (·.key)).Nodup ∧ slot.key ∉ made.map (·.key) := by
  have sound : ∀ m ∈ front, Sound (before ++ slot :: after) m := by
    intro m member
    have sound := gives.sound m (List.mem_append_left back member)
    refine RecordType.Has.sound_of_respelled sound (fun keyed => fresh ?_) slot same.symm
    exact same ▸ keyed ▸ List.mem_map_of_mem member
  obtain ⟨made, takes, among, counts⟩ := has.exists_takes sound
  refine ⟨made, takes, RecordType.Has.nodup_of_count_le among fun m member => ?_, ?_⟩
  · have known : m.key ∈ (before ++ slot' :: after).map (·.key) := by
      have all := has.keys ▸ List.mem_map_of_mem member
      simpa [same] using all
    obtain ⟨given, there, keyed⟩ := List.mem_map.1 known
    have once := gives.once given there
    rw [keyed, List.map_append, List.count_append] at once
    rw [counts m member]
    refine Nat.le_trans (Nat.le_add_right _ _) (once.trans_le ?_)
    split <;> decide
  · intro again
    obtain ⟨m, here, keyed⟩ := List.mem_map.1 again
    have some := List.count_pos_iff.2 (List.mem_map_of_mem (f := (·.key)) here)
    rw [counts m (among m here), keyed, List.count_pos_iff] at some
    exact fresh some

theorem rejects_object (has : t.Has (before ++ slot :: after) changes) (member : f ∈ t.fields)
    (keyed : slot.key = f.key) (around : ∀ other ∈ before ++ after, other.key ≠ f.key)
    (same : slot'.key = slot.key) (right : slot'.right = some spelled)
    (rejects : ∀ v, spelled v → f.Rejects v)
    (writes : Form.object.Writes (before ++ slot' :: after) s) : (record t).Rejects s := by
  obtain ⟨texts, members, enclosed, each, gives⟩ := writes
  have there : slot' ∈ before ++ slot' :: after := by simp
  have given : slot'.right.isSome := by rw [right]; rfl
  obtain ⟨front, v, back, rfl, fresh⟩ := gives.exists_member there given
  rw [same] at fresh each gives
  have unique : ∀ other ∈ before ++ slot' :: after, other.key = slot'.key → other = slot' := by
    intro other member keyed'
    have apart := mt (around other) (not_not_intro (keyed'.trans (same.trans keyed)))
    simp only [List.mem_append, List.mem_cons, not_or] at member apart
    exact (member.resolve_left apart.1).resolve_right apart.2
  have sound : Sound (before ++ slot' :: after) (slot'.key.toList, v) :=
    same ▸ gives.sound (slot.key.toList, v) (by simp)
  obtain ⟨_, right', spells⟩ := sound.holds there unique
  obtain rfl := Option.some.inj (right.symm.trans right')
  obtain ⟨made, takes, distinct, unmade⟩ := exists_takes_front has same gives fresh
  obtain ⟨texts, rest, rfl, first, second⟩ := exists_append_of_forall₂ each.flip
  obtain _ | ⟨given, -⟩ := second
  rw [keyed] at given unmade
  exact rejects_member takes distinct (has.regular.field?_key member) unmade first.flip given
    (rejects v spells) enclosed

theorem rejects_array (has : t.Has (before ++ slot :: after) changes) (member : f ∈ t.fields)
    (keyed : slot.key = f.key) (right : slot'.right = some spelled)
    (rejects : ∀ v, spelled v → f.Rejects v)
    (writes : Form.array.Writes (before ++ slot' :: after) s) :
    (record t).Rejects s := by
  obtain ⟨texts, given, absent, enclosed, split, each, missing⟩ := writes
  -- The slot is given, so it is not among those that are left.
  have apart : ∀ later, absent ≠ later ++ slot' :: after := by
    rintro later rfl
    have none := missing slot' (by simp)
    rw [right] at none
    cases none
  obtain ⟨after', rfl⟩ : ∃ after', given = before ++ slot' :: after' := by
    rcases List.append_eq_append_iff.1 split with ⟨later, rfl, behind⟩ | ⟨later, -, rest⟩
    · cases later with
      | nil => exact absurd behind.symm (apart [])
      | cons first later =>
          obtain ⟨rfl, -⟩ := List.cons.inj behind
          exact ⟨later, rfl⟩
    · exact absurd rest (apart later)
  obtain ⟨texts, rest, rfl, first, second⟩ := exists_append_of_forall₂ each.flip
  obtain _ | ⟨holds, -⟩ := second
  obtain ⟨b, v, b', blank, ⟨_, right', spells⟩, blank', rfl⟩ := holds
  obtain rfl := Option.some.inj (right.symm.trans right')
  obtain ⟨made, left, rfl, fits, fits', all⟩ := has.exists_split
  obtain _ | ⟨fit, -⟩ := fits'
  obtain rfl := has.field_unique (by simp) member (fit.key.symm.trans keyed)
  exact rejects_element (fills_of_holds first.flip fits) all ⟨b, v, b', blank, rfl, blank', rfl⟩
    (rejects v spells) enclosed

theorem RecordType.Makes.rejects {a : ρ} (makes : t.Makes slots a) (member : f ∈ t.fields)
    (rejects : ∀ v, spelled v → f.Rejects v) {form : Form}
    (writes : form.Writes (respelled slots f.key spelled) s) : (record t).Rejects s := by
  obtain ⟨changes, has, -⟩ := makes
  obtain ⟨before, slot, after, rfl, keyed, around⟩ := has.exists_around member
  obtain ⟨front, back⟩ := List.forall_mem_append.1 around
  rw [respelled_split front keyed back] at writes
  have same : { slot with right := some spelled }.key = slot.key := rfl
  have right : { slot with right := some spelled }.right = some spelled := rfl
  cases form with
  | object => exact rejects_object has member keyed around same right rejects writes
  | array => exact rejects_array has member keyed right rejects writes

theorem RecordType.Makes.rejects_text {a : ρ} (makes : t.Makes slots a) (member : f ∈ t.fields)
    {v : List Char} (rejects : f.Rejects v) {form : Form}
    (writes : form.Writes (respelled slots f.key (· = v)) s) : (record t).Rejects s := by
  refine makes.rejects member ?_ writes
  rintro _ rfl
  exact rejects

end Records

end Format

end BranchSim.Json
