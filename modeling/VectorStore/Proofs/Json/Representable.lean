/-
  Documents that a JSON text can hold.

  A document may hold an integer of any size, and an object two fields of one name; a JSON text
  holds neither.  `isRepresentable` is the rest, and `isRepresentable_read`: a document that is
  read from a text is among it, whatever the text.
-/
import VectorStore.Proofs.Json.Numbers
import VectorStore.Proofs.Memory.Records
import VectorStore.Proofs.Task.Failing

namespace VectorStore.Json

open Number (isDecimal natDigits)

/-! ## Representable documents -/

mutual

/-- Whether a JSON text can hold the value: no integer has too many digits, and no object has two
    fields of one name. -/
def isRepresentable : Value → Bool
  | .int n => (natDigits n.natAbs).length ≤ Number.maxIntDigits
  | .list items => areRepresentable items
  | .object fields => decide (Fields.keys fields).Nodup && areRepresentableFields fields
  | _ => true

/-- Whether all items are representable. -/
def areRepresentable : List Value → Bool
  | [] => true
  | v :: items => isRepresentable v && areRepresentable items

/-- Whether the values of all fields are representable. -/
def areRepresentableFields : List (String × Value) → Bool
  | [] => true
  | (_, v) :: fields => isRepresentable v && areRepresentableFields fields

end

theorem areRepresentableFields_iff {fields : Fields} :
    areRepresentableFields fields = true ↔ ∀ f ∈ fields, isRepresentable f.2 = true := by
  induction fields with
  | nil => simp [areRepresentableFields]
  | cons f fields ih =>
    rw [areRepresentableFields, Bool.and_eq_true, ih, List.forall_mem_cons]

theorem areRepresentable_iff {items : List Value} :
    areRepresentable items = true ↔ ∀ v ∈ items, isRepresentable v = true := by
  induction items with
  | nil => simp [areRepresentable]
  | cons v items ih => rw [areRepresentable, Bool.and_eq_true, ih, List.forall_mem_cons]

/-! ## Documents that have a text -/

mutual

/-- What a JSON text can hold has a text. -/
theorem isWritable_of_isRepresentable : ∀ {v : Value},
    isRepresentable v = true → v.isWritable = true
  | .int _, h => h
  | .list items, h => by
    rw [isRepresentable] at h
    exact areWritable_of_areRepresentable h
  | .object fields, h => by
    rw [isRepresentable, Bool.and_eq_true] at h
    exact areWritableFields_of_areRepresentable h.2
  | .null, _ | .bool _, _ | .float _, _ | .text _, _ => rfl

theorem areWritable_of_areRepresentable : ∀ {items : List Value},
    areRepresentable items = true → Value.areWritable items = true
  | [], _ => rfl
  | v :: items, h => by
    rw [areRepresentable, Bool.and_eq_true] at h
    rw [Value.areWritable, isWritable_of_isRepresentable h.1, areWritable_of_areRepresentable h.2]
    rfl

theorem areWritableFields_of_areRepresentable : ∀ {fields : Fields},
    areRepresentableFields fields = true → Value.areWritableFields fields = true
  | [], _ => rfl
  | (name, v) :: fields, h => by
    rw [areRepresentableFields, Bool.and_eq_true] at h
    rw [Value.areWritableFields, isWritable_of_isRepresentable h.1,
      areWritableFields_of_areRepresentable h.2]
    rfl

end

/-! ## Scalars -/

theorem ofDigits_lt {ds : List Char} (h : ∀ c ∈ ds, isDecimal c = true) :
    Number.ofDigits ds < 10 ^ ds.length := by
  induction ds using List.reverseRecOn with
  | nil => decide
  | append_singleton ds c ih =>
    have hds : Number.ofDigits ds < 10 ^ ds.length := ih fun d hd => h d (List.mem_append_left _ hd)
    obtain ⟨-, hc⟩ := Number.isDecimal_iff.1 (h c (by simp))
    have hlast : Number.ofDigits [c] = 10 * 0 + (c.toNat - 48) := rfl
    rw [Number.ofDigits_append, hlast, List.length_append, List.length_singleton, pow_succ]
    omega

theorem takeWhole_spec {cs whole rest : List Char} (h : takeWhole cs = some (whole, rest)) :
    whole ≠ [] ∧ ∀ c ∈ whole, isDecimal c = true := by
  cases cs with
  | nil => cases h
  | cons c cs =>
    rw [takeWhole] at h
    split at h
    · cases h
      exact ⟨List.cons_ne_nil _ _, List.forall_mem_singleton.2 (by decide)⟩
    · split at h
      · next hc =>
        cases h
        refine ⟨List.cons_ne_nil _ _, List.forall_mem_cons.2 ⟨hc, ?_⟩⟩
        intro d hd
        exact List.mem_takeWhile_imp hd
      · cases h

/-- What is read of a number is representable. -/
theorem isRepresentable_readUnsigned {negative : Bool} {cs rest : List Char} {v : Value}
    (h : readUnsigned negative cs = .ok (v, rest)) : isRepresentable v = true := by
  rw [readUnsigned] at h
  rcases hwhole : takeWhole cs with _ | ⟨whole, after⟩
  · rw [hwhole] at h
    cases h
  obtain ⟨hne, hdecimal⟩ := takeWhole_spec hwhole
  rw [hwhole] at h
  dsimp only at h
  split at h
  · split at h
    · cases h
    · next hshort =>
      cases h
      obtain ⟨n, hn⟩ : ∃ n, Number.ofDigits whole = n := ⟨_, rfl⟩
      have hsize : (if negative then -(n : ℤ) else n).natAbs = n := by cases negative <;> simp
      have hdigits : (natDigits n).length ≤ whole.length := by
        rw [natDigits, Nat.length_toDigits_le_iff (by decide) (List.length_pos_iff.2 hne), ← hn]
        exact ofDigits_lt hdecimal
      rw [hn, isRepresentable, hsize, decide_eq_true_iff]
      omega
  · cases h
    rfl

theorem isRepresentable_readWord {cs rest : List Char} {v : Value}
    (h : readWord cs = .ok (v, rest)) : isRepresentable v = true := by
  rw [readWord] at h
  split at h
  · next found hfound =>
    obtain ⟨w, hw, hrest⟩ := List.exists_of_findSome?_eq_some hfound
    obtain ⟨after, -, rfl⟩ := Option.map_eq_some_iff.1 hrest
    cases h
    simp only [List.mem_cons, List.not_mem_nil, or_false] at hw
    rcases hw with rfl | rfl | rfl | rfl | rfl | rfl <;> rfl
  · cases h

/-! ## Values -/

theorem isRepresentable_object {fields : Fields} : isRepresentable (.object fields) = true ↔
    (Fields.keys fields).Nodup ∧ ∀ f ∈ fields, isRepresentable f.2 = true := by
  rw [isRepresentable, Bool.and_eq_true, decide_eq_true_iff, areRepresentableFields_iff]

/-- An object is representable with another field put into it. -/
theorem isRepresentable_put {fields : Fields} {name : String} {v : Value}
    (h : isRepresentable (.object fields) = true) (hv : isRepresentable v = true) :
    isRepresentable (.object (Fields.put fields name v)) = true := by
  obtain ⟨hnodup, hfields⟩ := isRepresentable_object.1 h
  refine isRepresentable_object.2 ⟨Fields.nodup_keys_put hnodup, fun f hf => ?_⟩
  rcases Fields.mem_put hf with rfl | hf
  · exact hv
  · exact hfields f hf

/-- Fields that are put together have distinct names. -/
theorem isRepresentable_putAll {more : Fields} (h : ∀ f ∈ more, isRepresentable f.2 = true) :
    ∀ {fields : Fields}, isRepresentable (.object fields) = true →
      isRepresentable (.object (Fields.putAll fields more)) = true := by
  induction more with
  | nil => exact fun hfields => hfields
  | cons f more ih =>
    intro fields hfields
    obtain ⟨hf, hmore⟩ := List.forall_mem_cons.1 h
    exact ih hmore (isRepresentable_put hfields hf)

mutual

/-- **What is read is representable.** -/
theorem isRepresentable_readValue : ∀ {fuel : ℕ} {cs rest : List Char} {v : Value},
    readValue fuel cs = .ok (v, rest) → isRepresentable v = true
  | 0, cs, rest, v, h => by cases h
  | fuel + 1, cs, rest, v, h => by
    rw [readValue] at h
    split at h
    · cases h
    · obtain ⟨s, -, h⟩ := bind_eq_ok h
      cases h
      rfl
    · split at h
      · cases h
        rfl
      · obtain ⟨items, hitems, h⟩ := bind_eq_ok h
        cases h
        exact areRepresentable_iff.2 (isRepresentable_readItems hitems)
    · split at h
      · cases h
        rfl
      · obtain ⟨fields, hfields, h⟩ := bind_eq_ok h
        cases h
        exact isRepresentable_putAll (isRepresentable_readFields hfields) rfl
    · exact isRepresentable_readWord h
    · exact isRepresentable_readUnsigned h
    · split at h
      · exact isRepresentable_readUnsigned h
      · exact isRepresentable_readWord h

theorem isRepresentable_readItems : ∀ {fuel : ℕ} {cs rest : List Char} {items : List Value},
    readItems fuel cs = .ok (items, rest) → ∀ v ∈ items, isRepresentable v = true
  | 0, cs, rest, items, h => by cases h
  | fuel + 1, cs, rest, items, h => by
    rw [readItems] at h
    obtain ⟨⟨v, after⟩, hread, h⟩ := bind_eq_ok h
    have hv : isRepresentable v = true := isRepresentable_readValue hread
    dsimp only at h
    split at h
    · cases h
      exact List.forall_mem_singleton.2 hv
    · obtain ⟨more, hmore, h⟩ := bind_eq_ok h
      cases h
      exact List.forall_mem_cons.2 ⟨hv, isRepresentable_readItems hmore⟩
    · cases h

theorem isRepresentable_readFields : ∀ {fuel : ℕ} {cs rest : List Char} {fields : Fields},
    readFields fuel cs = .ok (fields, rest) → ∀ f ∈ fields, isRepresentable f.2 = true
  | 0, cs, rest, fields, h => by cases h
  | fuel + 1, cs, rest, fields, h => by
    rw [readFields] at h
    split at h
    · obtain ⟨⟨name, named⟩, -, h⟩ := bind_eq_ok h
      dsimp only at h
      split at h
      · obtain ⟨⟨v, after⟩, hread, h⟩ := bind_eq_ok h
        have hv : isRepresentable v = true := isRepresentable_readValue hread
        dsimp only at h
        split at h
        · cases h
          exact List.forall_mem_singleton.2 hv
        · obtain ⟨more, hmore, h⟩ := bind_eq_ok h
          cases h
          exact List.forall_mem_cons.2 ⟨hv, isRepresentable_readFields hmore⟩
        · cases h
      · cases h
    · cases h

end

/-- **A document that is read from a text is representable.** -/
theorem isRepresentable_read {s : String} {v : Value} (h : read s = .ok v) :
    isRepresentable v = true := by
  rw [read] at h
  obtain ⟨⟨w, rest⟩, hread, h⟩ := bind_eq_ok h
  dsimp only at h
  split at h
  · cases h
    exact isRepresentable_readValue hread
  · cases h

end VectorStore.Json
