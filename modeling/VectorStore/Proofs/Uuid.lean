/-
  Spellings of identifiers.

  * `text_inj`: identifiers have different canonical forms; both those that are read
    (`read?_lt`) and those of names (`named_lt`) are in range for it;
  * `read?_eq_none_of_length_lt`: fewer than 32 characters spell no identifier.
-/
import Mathlib.Algebra.Group.Nat.Defs
import VectorStore.Uuid

namespace VectorStore

open Text

/-! ## Hexadecimal digits -/

theorem digitChar_inj {m n : Nat} (hm : m < 16) (hn : n < 16)
    (h : Nat.digitChar m = Nat.digitChar n) : m = n := by
  revert n
  revert m
  decide

theorem hyphen_notMem_hex (width n : Nat) : '-' ∉ hex width n := by
  have hd : ∀ d < 16, Nat.digitChar d ≠ '-' := by decide
  induction width generalizing n with
  | zero => exact List.not_mem_nil
  | succ width ih =>
    rw [hex, List.mem_append, List.mem_singleton]
    rintro (h | h)
    · exact ih _ h
    · exact hd _ (Nat.mod_lt _ (by decide)) h.symm

theorem hex_inj {width m n : Nat} (hm : m < 16 ^ width) (hn : n < 16 ^ width)
    (h : hex width m = hex width n) : m = n := by
  induction width generalizing m n with
  | zero => rw [Nat.pow_zero] at hm hn; omega
  | succ width ih =>
    obtain ⟨hq, hr⟩ := List.append_inj' h rfl
    have hr : m % 16 = n % 16 :=
      digitChar_inj (Nat.mod_lt _ (by decide)) (Nat.mod_lt _ (by decide)) (by simpa using hr)
    have hq : m / 16 = n / 16 := by
      refine ih ?_ ?_ hq <;> rw [Nat.div_lt_iff_lt_mul (by decide), ← Nat.pow_succ] <;> assumption
    omega

namespace Uuid

/-! ## The canonical form -/

/-- Without its hyphens the canonical form is the digits. -/
theorem filter_text (u : Uuid) : u.text.toList.filter (· != '-') = u.digits := by
  have hl : u.digits.length = 32 := length_hex 32 u.value
  have hg (first length : Nat) : ((u.digits.drop first).take length).filter (· != '-') =
      (u.digits.drop first).take length := by
    refine List.filter_eq_self.2 fun c hc => bne_iff_ne.2 ?_
    rintro rfl
    exact hyphen_notMem_hex 32 u.value (List.mem_of_mem_drop (List.mem_of_mem_take hc))
  have hj (first length : Nat) :
      (u.digits.drop first).take length ++ u.digits.drop (first + length) =
        u.digits.drop first := by
    rw [← List.drop_drop, List.take_append_drop]
  have hlast : (u.digits.drop 20).take 12 = u.digits.drop 20 :=
    List.take_of_length_le (Nat.le_of_eq (by rw [List.length_drop, hl]))
  simp only [text, String.toList_ofList, List.filter_append, List.filter_cons, hg]
  simp only [bne_self_eq_false, Bool.false_eq_true, if_false]
  rw [hlast, hj 16 4, hj 12 4, hj 8 4, hj 0 8, List.drop_zero]

theorem text_inj {u v : Uuid} (hu : u.value < 2 ^ 128) (hv : v.value < 2 ^ 128)
    (h : u.text = v.text) : u = v := by
  have hd : u.digits = v.digits := by rw [← filter_text, ← filter_text, h]
  obtain ⟨m⟩ := u
  obtain ⟨n⟩ := v
  exact congrArg mk (hex_inj (by simpa using hu) (by simpa using hv) hd)

/-! ## Identifiers that are read -/

theorem read?_lt {s : String} {u : Uuid} (h : read? s = some u) : u.value < 2 ^ 128 := by
  simp only [read?, ne_eq, ite_not, Option.bind_eq_bind] at h
  split at h
  · obtain ⟨n, -, h⟩ := Option.bind_eq_some_iff.1 h
    split at h
    · next hn => cases h; exact (Int.toNat_lt hn.1).2 hn.2
    · cases h
  · cases h

theorem length_without_le (mark : List Char) : ∀ (fuel : Nat) (cs : List Char),
    (without mark fuel cs).length ≤ cs.length
  | 0, cs => Nat.le_refl _
  | _ + 1, [] => Nat.le_refl _
  | fuel + 1, c :: cs => by
    rw [without]
    split
    · refine Nat.le_trans (length_without_le mark fuel _) ?_
      rw [List.length_drop]
      exact Nat.sub_le _ _
    · exact Nat.succ_le_succ (length_without_le mark fuel cs)

theorem length_trim_le (inClass : Char → Bool) (cs : List Char) :
    (trim inClass cs).length ≤ cs.length := by
  rw [trim, List.length_reverse]
  refine Nat.le_trans (List.dropWhile_sublist _).length_le ?_
  rw [List.length_reverse]
  exact (List.dropWhile_sublist _).length_le

theorem length_places_le (s : String) : (places s).length ≤ s.toList.length :=
  Nat.le_trans (List.length_filter_le _ _) <| Nat.le_trans (length_trim_le _ _) <|
    Nat.le_trans (length_without_le _ _ _) (length_without_le _ _ _)

theorem read?_eq_none_of_length_lt {s : String} (h : s.toList.length < 32) : read? s = none := by
  have hp : (places s).length ≠ 32 := by
    have := length_places_le s
    omega
  simp [read?, hp]

/-! ## Identifiers of names -/

theorem ofBytes_lt (bs : List UInt8) : ofBytes bs < 256 ^ bs.length := by
  have hf (n : Nat) : bs.foldl (fun n b => 256 * n + b.toNat) n < 256 ^ bs.length * (n + 1) := by
    induction bs generalizing n with
    | nil => simp
    | cons b bs ih =>
      refine Nat.lt_of_lt_of_le (ih _) ?_
      rw [List.length_cons, Nat.pow_succ, Nat.mul_assoc]
      have hb : 256 * n + b.toNat + 1 ≤ 256 * (n + 1) := by
        have := b.toNat_lt
        omega
      exact Nat.mul_le_mul_left _ hb
  simpa [ofBytes] using hf 0

theorem named_lt (space : Uuid) (name : String) : (named space name).value < 2 ^ 128 := by
  have hb := ofBytes_lt ((Digest.sha1 (space.bytes ++ name.toUTF8.toList)).take 16)
  have hl : ((Digest.sha1 (space.bytes ++ name.toUTF8.toList)).take 16).length ≤ 16 :=
    List.length_take_le _ _
  have hp := Nat.lt_of_lt_of_le hb (Nat.pow_le_pow_right (by decide) hl)
  simp only [named, Nat.pow_eq]
  generalize ofBytes _ = n at hp ⊢
  omega

end Uuid

end VectorStore
