/-
  What the chunks of a list are.

  * `Cut` says what it is to cut a list into blocks, which `pieces` does (`cut_pieces`);
  * `getElem?_chunks`: the chunk of number `k` starts at `k * size` and holds the items from
    there on, at most `size` of them;
  * `length_chunks`: so many chunks as it takes;
  * `zipIdx_eq_flatMap`: the chunks hold the items in their order, each at its position;
  * `Partition` says that the blocks of a cut have their places: there are as many of them as it
    takes, and each starts at its number times the size, which is where those before it end;
    `chunked_partitions`: for every positive size `chunked` partitions a list, and the chunks that
    are written are the blocks at these offsets.
-/
import Mathlib.Algebra.Order.Floor.Div
import Mathlib.Data.List.Basic
import Mathlib.Data.Nat.Basic
import Mathlib.Order.Basic
import VectorStore.Batch.Chunk

namespace VectorStore.Batch

variable {α : Type} {size : Nat}

/-! ## Pieces -/

theorem pieces_nil : pieces size ([] : List α) = [] := by
  rw [pieces, dif_pos (.inl rfl)]

theorem pieces_of_ne_nil (hsize : 0 < size) {items : List α} (h : items ≠ []) :
    pieces size items = items.take size :: pieces size (items.drop size) := by
  rw [pieces, dif_neg (by simp [h]; omega)]

theorem getElem?_pieces (hsize : 0 < size) (items : List α) (k : Nat) :
    (pieces size items)[k]? =
      if k * size < items.length then some ((items.drop (k * size)).take size) else none := by
  induction k generalizing items with
  | zero =>
    by_cases h : items = []
    · simp [h, pieces_nil]
    · simp [pieces_of_ne_nil hsize h, List.length_pos_iff.2 h]
  | succ k ih =>
    by_cases h : items = []
    · simp [h, pieces_nil]
    · rw [pieces_of_ne_nil hsize h, List.getElem?_cons_succ, ih, List.drop_drop, List.length_drop,
        Nat.succ_mul, Nat.add_comm size]
      have hiff : k * size < items.length - size ↔ k * size + size < items.length := by omega
      simp only [hiff]

theorem lt_length_pieces (hsize : 0 < size) (items : List α) (k : Nat) :
    k < (pieces size items).length ↔ k * size < items.length := by
  have h := getElem?_pieces hsize items k
  constructor
  · intro hk
    by_contra hn
    rw [if_neg hn, List.getElem?_eq_none_iff] at h
    omega
  · intro hk
    rw [if_pos hk] at h
    obtain ⟨hlt, -⟩ := List.getElem?_eq_some_iff.1 h
    exact hlt

theorem length_pieces (hsize : 0 < size) (items : List α) :
    (pieces size items).length = (items.length + size - 1) / size := by
  have hdiv (k : Nat) : k < (items.length + size - 1) / size ↔ k * size < items.length := by
    rw [Nat.lt_iff_add_one_le, Nat.le_div_iff_mul_le hsize, Nat.succ_mul]
    omega
  exact eq_of_forall_lt_iff fun k => (lt_length_pieces hsize items k).trans (hdiv k).symm

/-- The first pieces hold the first items. -/
theorem flatten_take_pieces (size : Nat) (items : List α) (k : Nat) :
    ((pieces size items).take k).flatten = items.take (k * size) := by
  fun_induction pieces size items generalizing k with
  | case1 items h =>
    rcases h with rfl | rfl
    · simp
    · simp
  | case2 items h ih =>
    cases k with
    | zero => simp
    | succ k => rw [List.take_succ_cons, List.flatten_cons, ih, Nat.succ_mul, Nat.add_comm,
        List.take_add]

/-- Consecutive blocks of a list: none of them is empty, and all but the last have the same
    size, which the last one does not exceed. -/
structure Cut (size : Nat) (items : List α) (blocks : List (List α)) : Prop where
  flatten_eq : blocks.flatten = items
  ne_nil : ∀ b ∈ blocks, b ≠ []
  length_le : ∀ b ∈ blocks, b.length ≤ size
  length_eq : ∀ b ∈ blocks.dropLast, b.length = size

/-- **The pieces of a list are its blocks.** -/
theorem cut_pieces (hsize : 0 < size) (items : List α) : Cut size items (pieces size items) := by
  have hmem : ∀ b ∈ pieces size items, ∃ k, k * size < items.length ∧
      b = (items.drop (k * size)).take size := fun b hb => by
    obtain ⟨k, hk⟩ := List.getElem?_of_mem hb
    rw [getElem?_pieces hsize] at hk
    split at hk
    · next hlt => exact ⟨k, hlt, (Option.some.inj hk).symm⟩
    · cases hk
  refine ⟨flatten_pieces hsize items, fun b hb => ?_, fun b hb => ?_, fun b hb => ?_⟩
  · obtain ⟨k, hlt, rfl⟩ := hmem b hb
    simp only [ne_eq, List.take_eq_nil_iff, List.drop_eq_nil_iff]
    omega
  · obtain ⟨k, -, rfl⟩ := hmem b hb
    exact List.length_take_le _ _
  · -- another piece follows, which begins where this one ends
    obtain ⟨k, hk⟩ := List.getElem?_of_mem hb
    rw [List.getElem?_dropLast] at hk
    split at hk
    · next hlt =>
      have hnext := (lt_length_pieces hsize items (k + 1)).1 (by omega)
      rw [getElem?_pieces hsize] at hk
      split at hk <;> cases hk
      rw [List.length_take, List.length_drop]
      rw [Nat.succ_mul] at hnext
      omega
    · cases hk

/-! ## Chunks -/

theorem getElem?_chunks (hsize : 0 < size) (items : List α) (k : Nat) :
    (chunks size items)[k]? =
      if k * size < items.length then some ⟨k, k * size, (items.drop (k * size)).take size⟩
      else none := by
  rw [chunks, List.getElem?_map, List.getElem?_zipIdx, getElem?_pieces hsize, Nat.zero_add]
  split <;> rfl

/-- So many chunks as it takes to hold the items. -/
theorem length_chunks (hsize : 0 < size) (items : List α) :
    (chunks size items).length = (items.length + size - 1) / size := by
  rw [chunks, List.length_map, List.length_zipIdx, length_pieces hsize]

/-- **What a chunk is.** -/
theorem eq_of_mem_chunks (hsize : 0 < size) {items : List α} {c : Chunk α}
    (h : c ∈ chunks size items) : c.index * size < items.length ∧
      c = ⟨c.index, c.index * size, (items.drop (c.index * size)).take size⟩ := by
  obtain ⟨k, hk⟩ := List.getElem?_of_mem h
  rw [getElem?_chunks hsize] at hk
  split at hk
  · next hlt => cases hk; exact ⟨hlt, rfl⟩
  · cases hk

theorem offset_lt (hsize : 0 < size) {items : List α} {c : Chunk α} (h : c ∈ chunks size items) :
    c.offset < items.length := by
  obtain ⟨hlt, he⟩ := eq_of_mem_chunks hsize h
  rw [he]
  exact hlt

theorem index_getElem?_chunks (hsize : 0 < size) {items : List α} {c : Chunk α} {k : Nat}
    (h : (chunks size items)[k]? = some c) : c.index = k := by
  rw [getElem?_chunks hsize] at h
  split at h <;> cases h
  rfl

/-- The numbers of the chunks. -/
theorem index_chunks (hsize : 0 < size) (items : List α) :
    (chunks size items).map (·.index) = List.range (chunks size items).length := by
  refine List.ext_getElem? fun k => ?_
  rw [List.getElem?_map]
  rcases hk : (chunks size items)[k]? with _ | c
  · rw [List.getElem?_eq_none_iff] at hk
    simp [hk]
  · obtain ⟨hlt, -⟩ := List.getElem?_eq_some_iff.1 hk
    simp [hlt, index_getElem?_chunks hsize hk]

theorem nodup_chunks (hsize : 0 < size) (items : List α) :
    ((chunks size items).map (·.index)).Nodup := by
  rw [index_chunks hsize]
  exact List.nodup_range

theorem pairwise_chunks (hsize : 0 < size) (items : List α) :
    (chunks size items).Pairwise fun c c' => c.index < c'.index := by
  have h := @List.pairwise_lt_range (chunks size items).length
  rw [← index_chunks hsize] at h
  exact List.pairwise_map.1 h

theorem records_ne_nil (hsize : 0 < size) {items : List α} {c : Chunk α}
    (h : c ∈ chunks size items) : c.records ≠ [] := by
  obtain ⟨hlt, he⟩ := eq_of_mem_chunks hsize h
  rw [he]
  simp only [ne_eq, List.take_eq_nil_iff, List.drop_eq_nil_iff]
  omega

/-- A record of a chunk is the item at its position. -/
theorem getElem?_records (hsize : 0 < size) {items : List α} {c : Chunk α}
    (h : c ∈ chunks size items) {i : Nat} (hi : i < c.records.length) :
    items[c.offset + i]? = c.records[i]? := by
  obtain ⟨-, he⟩ := eq_of_mem_chunks hsize h
  rw [he] at hi ⊢
  simp only [List.length_take] at hi
  rw [List.getElem?_take_of_lt (by omega), List.getElem?_drop]

/-- The number of an item's chunk is known from its position. -/
theorem div_of_mem_zipIdx (hsize : 0 < size) {items : List α} {c : Chunk α}
    (hc : c ∈ chunks size items) {p : α × Nat} (hp : p ∈ c.records.zipIdx c.offset) :
    p.2 / size = c.index := by
  obtain ⟨-, he⟩ := eq_of_mem_chunks hsize hc
  have hle := List.le_snd_of_mem_zipIdx hp
  have hlt := List.snd_lt_of_mem_zipIdx hp
  rw [he] at hle hlt
  simp only [List.length_take] at hle hlt
  refine Nat.div_eq_of_lt_le (by omega) ?_
  rw [Nat.succ_mul]
  omega

theorem records_chunks (size : Nat) (items : List α) :
    (chunks size items).map (·.records) = pieces size items := by
  rw [chunks, List.map_map]
  exact List.zipIdx_map_fst 0 (pieces size items)

/-- Before a chunk stand the items up to where it starts. -/
theorem flatMap_records_of_append (hsize : 0 < size) {items : List α} {good rest : List (Chunk α)}
    {bad : Chunk α} (h : chunks size items = good ++ bad :: rest) :
    good.flatMap (·.records) = items.take bad.offset := by
  have hbad : (chunks size items)[good.length]? = some bad := by simp [h]
  obtain ⟨-, he⟩ := eq_of_mem_chunks hsize (List.mem_of_getElem? hbad)
  rw [index_getElem?_chunks hsize hbad] at he
  have hoffset : bad.offset = good.length * size := by rw [he]
  have hgood : good.map (·.records) = (pieces size items).take good.length := by
    rw [← records_chunks, h, List.map_append, List.take_left' (List.length_map _)]
  rw [List.flatMap_def, hgood, flatten_take_pieces, hoffset]

theorem zipIdx_pieces (hsize : 0 < size) (items : List α) (k : Nat) :
    ((pieces size items).zipIdx k).flatMap (fun p => p.1.zipIdx (p.2 * size)) =
      items.zipIdx (k * size) := by
  fun_induction pieces size items generalizing k with
  | case1 items h =>
    rcases h with rfl | h
    · rfl
    · omega
  | case2 items h ih =>
    rw [List.zipIdx_cons, List.flatMap_cons, ih]
    conv_rhs => rw [← List.take_append_drop size items, List.zipIdx_append]
    -- only the last piece is shorter, and nothing is left behind it
    by_cases hl : size ≤ items.length
    · rw [List.length_take, Nat.min_eq_left hl, Nat.succ_mul]
    · rw [List.drop_eq_nil_of_le (by omega), List.zipIdx_nil, List.zipIdx_nil]

/-- **The chunks hold the items in their order, each at its position.** -/
theorem zipIdx_eq_flatMap (hsize : 0 < size) (items : List α) :
    items.zipIdx = (chunks size items).flatMap fun c => c.records.zipIdx c.offset := by
  have h := zipIdx_pieces hsize items 0
  rw [Nat.zero_mul] at h
  rw [← h, chunks, List.flatMap_map]

/-! ## The partition -/

section

variable {items : List α}

/-- A cut of a list whose blocks have their places: as many blocks as it takes, each of which starts
    where those before it end, at its number times the size. -/
structure Partition (size : Nat) (items : List α) (blocks : List (List α)) : Prop
    extends Cut size items blocks where
  count : blocks.length = items.length ⌈/⌉ size
  start : ∀ i < blocks.length, ((blocks.take i).map List.length).sum = i * size
  item : ∀ {i j : Nat} {b : List α}, blocks[i]? = some b → j < b.length →
    items[i * size + j]? = b[j]?

/-- The pieces before the one of number `i` are full. -/
theorem sum_length_take_pieces (hsize : 0 < size) {i : Nat} (hi : i < (pieces size items).length) :
    (((pieces size items).take i).map List.length).sum = i * size := by
  have hstart : i * size < items.length := (lt_length_pieces hsize items i).1 hi
  rw [← List.length_flatten, flatten_take_pieces, List.length_take]
  omega

/-- An item of a piece is the one at its position in the list. -/
theorem getElem?_of_pieces (hsize : 0 < size) {i j : Nat} {b : List α}
    (hb : (pieces size items)[i]? = some b) (hj : j < b.length) :
    items[i * size + j]? = b[j]? := by
  rw [getElem?_pieces hsize] at hb
  split at hb <;> cases hb
  have hj' : j < size := Nat.lt_of_lt_of_le hj (List.length_take_le ..)
  rw [List.getElem?_take_of_lt hj', List.getElem?_drop]

/-- The pieces of a list partition it. -/
theorem partition_pieces (hsize : 0 < size) (items : List α) :
    Partition size items (pieces size items) where
  toCut := cut_pieces hsize items
  count := length_pieces hsize items
  start _ hi := sum_length_take_pieces hsize hi
  item hb hj := getElem?_of_pieces hsize hb hj

/-- The chunks are the pieces with their numbers and offsets. -/
theorem chunks_eq_mapIdx (size : Nat) (items : List α) :
    chunks size items = (pieces size items).mapIdx fun i b => ⟨i, i * size, b⟩ := by
  rw [chunks, List.mapIdx_eq_zipIdx_map]

/-- A positive size is taken. -/
theorem chunked_eq_ok (hsize : 0 < size) (items : List α) :
    chunked items (.int size) = .ok (pieces size items) := by
  have hpositive : positive? (.int size) = some size := by
    rw [positive?, if_pos (by omega), Int.toNat_natCast]
  rw [chunked, hpositive]

/-- **Cutting a list into chunks partitions it**, whatever the list and the size, and the chunks
    that are written stand at the offsets of the partition. -/
theorem chunked_partitions (items : List α) (hsize : 1 ≤ size) :
    ∃ blocks, chunked items (.int size) = .ok blocks ∧ Partition size items blocks ∧
      chunks size items = blocks.mapIdx fun i b => ⟨i, i * size, b⟩ :=
  ⟨_, chunked_eq_ok hsize items, partition_pieces hsize items, chunks_eq_mapIdx size items⟩

/-- Five items in chunks of two: the last chunk is short, and starts behind four items. -/
theorem chunked_partitions_five :
    1 ≤ 2 ∧ chunked ["a", "b", "c", "d", "e"] (.int 2) = .ok [["a", "b"], ["c", "d"], ["e"]] ∧
      Partition 2 ["a", "b", "c", "d", "e"] [["a", "b"], ["c", "d"], ["e"]] ∧
      chunks 2 ["a", "b", "c", "d", "e"] =
        [⟨0, 0, ["a", "b"]⟩, ⟨1, 2, ["c", "d"]⟩, ⟨2, 4, ["e"]⟩] := by
  obtain ⟨blocks, hchunked, hpartition, hchunks⟩ :=
    chunked_partitions ["a", "b", "c", "d", "e"] (show 1 ≤ 2 by decide)
  have hpieces : pieces 2 ["a", "b", "c", "d", "e"] = [["a", "b"], ["c", "d"], ["e"]] := by
    simp [pieces]
  obtain rfl : blocks = [["a", "b"], ["c", "d"], ["e"]] := by
    rw [chunked_eq_ok (by decide), hpieces] at hchunked
    exact (Except.ok.inj hchunked).symm
  exact ⟨by decide, hchunked, hpartition, hchunks⟩

end

end VectorStore.Batch
