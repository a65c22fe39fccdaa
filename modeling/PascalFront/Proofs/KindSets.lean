-- Sets of token kinds as words. Every set is made with a few operations, and each
-- of them leaves exactly the bits of the kinds in the set it makes. So all that is
-- asked of the word is answered for the set: the bits are counted for the kinds,
-- and two words are compared for two sets.
import PascalFront.KindSet
import PascalFront.Proofs.Kinds
import Mathlib.Data.Finset.Dedup
import Mathlib.Data.Finset.Card

namespace PascalFront

/-! ## The order of the kinds -/

namespace TokenKind

theorem map_index_all : all.map index = List.range count := by decide +kernel

theorem index_injective : Function.Injective index := by
  intro k k' h
  have hnodup : (all.map index).Nodup := map_index_all ▸ List.nodup_range
  exact List.inj_on_of_nodup_map hnodup (mem_all k) (mem_all k') h

theorem index_lt_count (k : TokenKind) : k.index < count := by
  have hmem : k.index ∈ all.map index := List.mem_map_of_mem (mem_all k)
  rw [map_index_all] at hmem
  exact List.mem_range.mp hmem

/-- The list of all kinds is in the order of the declaration, and has none twice. -/
theorem pairwise_all : all.Pairwise (·.index < ·.index) := by
  have hrange : (all.map index).Pairwise (· < ·) := map_index_all ▸ List.pairwise_lt_range
  exact List.pairwise_map.mp hrange

end TokenKind

namespace KindSet

/-! ## Words and sets -/

/-- Every kind has a bit of its own in a word. -/
theorem index_lt_width (k : TokenKind) : k.index < 128 :=
  Nat.lt_of_lt_of_le k.index_lt_count (by decide)

/-- The bits of a word are those of some kinds, and no other bit is set. -/
def HoldsExactly (s : KindSet) (ks : Finset TokenKind) : Prop :=
  ∀ i, s.bits.getLsbD i = true ↔ ∃ k ∈ ks, k.index = i

theorem getLsbD_bit (k : TokenKind) (i : Nat) : (bit k).getLsbD i = true ↔ k.index = i := by
  rw [bit, ← BitVec.twoPow_eq, BitVec.getLsbD_twoPow]
  simp [index_lt_width]

variable {s t : KindSet} {ks ls : Finset TokenKind} {k : TokenKind}

/-! ## Making sets -/

theorem holdsExactly_empty : empty.HoldsExactly ∅ := by
  intro i
  simp [empty]

theorem HoldsExactly.insert (h : s.HoldsExactly ks) (k : TokenKind) :
    (s.insert k).HoldsExactly (Insert.insert k ks) := by
  intro i
  rw [KindSet.insert, BitVec.getLsbD_or, Bool.or_eq_true, h i, getLsbD_bit,
    Finset.exists_mem_insert]
  exact or_comm

theorem HoldsExactly.erase (h : s.HoldsExactly ks) (k : TokenKind) :
    (s.erase k).HoldsExactly (ks.erase k) := by
  intro i
  have hcleared : (bit k).getLsbD i = false ↔ k.index ≠ i := by
    rw [← Bool.not_eq_true, getLsbD_bit]
  rw [KindSet.erase, BitVec.getLsbD_and, BitVec.getLsbD_not, Bool.and_eq_true, h i,
    Bool.and_eq_true, Bool.not_eq_true', hcleared, decide_eq_true_iff]
  constructor
  · rintro ⟨⟨l, hl, rfl⟩, -, hne⟩
    exact ⟨l, Finset.mem_erase.mpr ⟨fun heq => hne (heq ▸ rfl), hl⟩, rfl⟩
  · rintro ⟨l, hl, rfl⟩
    obtain ⟨hne, hl⟩ := Finset.mem_erase.mp hl
    exact ⟨⟨l, hl, rfl⟩, index_lt_width l, fun heq => hne (TokenKind.index_injective heq).symm⟩

theorem HoldsExactly.union (hs : s.HoldsExactly ks) (ht : t.HoldsExactly ls) :
    (s.union t).HoldsExactly (ks ∪ ls) := by
  intro i
  rw [KindSet.union, BitVec.getLsbD_or, Bool.or_eq_true, hs i, ht i]
  simp only [Finset.mem_union, or_and_right, exists_or]

theorem HoldsExactly.foldl_insert (h : s.HoldsExactly ks) (more : List TokenKind) :
    (more.foldl KindSet.insert s).HoldsExactly (ks ∪ more.toFinset) := by
  induction more generalizing s ks with
  | nil => simpa using h
  | cons k more ih =>
    have hinsert : Insert.insert k ks ∪ more.toFinset = ks ∪ (k :: more).toFinset := by
      rw [List.toFinset_cons, Finset.insert_union, Finset.union_insert]
    exact hinsert ▸ ih (h.insert k)

theorem holdsExactly_ofList (ks : List TokenKind) : (ofList ks).HoldsExactly ks.toFinset := by
  have h := holdsExactly_empty.foldl_insert ks
  rwa [Finset.empty_union] at h

/-! ## Asking about sets -/

theorem HoldsExactly.mem_iff (h : s.HoldsExactly ks) :
    k ∈ ks ↔ s.bits.getLsbD k.index = true := by
  rw [h k.index]
  constructor
  · exact fun hk => ⟨k, hk, rfl⟩
  · rintro ⟨l, hl, heq⟩
    exact TokenKind.index_injective heq ▸ hl

theorem contains_iff_getLsbD : s.contains k = true ↔ s.bits.getLsbD k.index = true := by
  have hset : (bit k).getLsbD k.index = true := (getLsbD_bit k k.index).mpr rfl
  have hne : bit k ≠ 0#128 := by
    intro hzero
    rw [hzero, BitVec.getLsbD_zero] at hset
    cases hset
  have hand : s.bits &&& bit k = if s.bits.getLsbD k.index then bit k else 0#128 := by
    rw [bit, ← BitVec.twoPow_eq, BitVec.and_twoPow]
  rw [contains, bne_iff_ne, hand]
  split <;> simp [*]

theorem HoldsExactly.contains_iff (h : s.HoldsExactly ks) : s.contains k = true ↔ k ∈ ks :=
  contains_iff_getLsbD.trans h.mem_iff.symm

theorem HoldsExactly.includes_iff (hs : s.HoldsExactly ks) (ht : t.HoldsExactly ls) :
    s.includes t = true ↔ ls ⊆ ks := by
  rw [includes, beq_iff_eq]
  constructor
  · intro hand k hk
    rw [ht.mem_iff, ← hand, BitVec.getLsbD_and, Bool.and_eq_true] at hk
    exact hs.mem_iff.mpr hk.1
  · intro hsubset
    refine BitVec.eq_of_getLsbD_eq fun i _ => ?_
    rw [BitVec.getLsbD_and, Bool.and_eq_right_iff_imp, ht i, hs i]
    rintro ⟨k, hk, rfl⟩
    exact ⟨k, hsubset hk, rfl⟩

/-- Equal words are equal sets. -/
theorem HoldsExactly.eq_iff (hs : s.HoldsExactly ks) (ht : t.HoldsExactly ls) :
    s = t ↔ ks = ls := by
  constructor
  · rintro rfl
    ext k
    rw [hs.mem_iff, ht.mem_iff]
  · rintro rfl
    have hbits : s.bits = t.bits :=
      BitVec.eq_of_getLsbD_eq fun i _ => Bool.eq_iff_iff.mpr ((hs i).trans (ht i).symm)
    cases s
    cases t
    exact congrArg mk hbits

theorem HoldsExactly.isEmpty_iff (h : s.HoldsExactly ks) : s.isEmpty = true ↔ ks = ∅ := by
  rw [← h.eq_iff holdsExactly_empty, isEmpty, beq_iff_eq]
  exact ⟨fun heq => congrArg mk heq, fun heq => congrArg bits heq⟩

/-- The bits of a word, counted one by one from the lowest. -/
theorem cpopNatRec_eq_card (x : BitVec 128) (n : Nat) :
    x.cpopNatRec n 0 = ((Finset.range n).filter (x.getLsbD · = true)).card := by
  induction n with
  | zero => rfl
  | succ n ih =>
    rw [BitVec.cpopNatRec_succ, BitVec.cpopNatRec_add, ih, Finset.range_add_one,
      Finset.filter_insert]
    cases x.getLsbD n with
    | false => rfl
    | true =>
      rw [if_pos rfl, Finset.card_insert_of_notMem (by simp)]
      rfl

theorem HoldsExactly.size_eq (h : s.HoldsExactly ks) : s.size = ks.card := by
  have hbits : (Finset.range 128).filter (s.bits.getLsbD · = true) =
      ks.image TokenKind.index := by
    ext i
    rw [Finset.mem_filter, h i, Finset.mem_image, Finset.mem_range, and_iff_right_iff_imp]
    rintro ⟨k, -, rfl⟩
    exact index_lt_width k
  rw [size, BitVec.toNat_cpop, cpopNatRec_eq_card, hbits,
    Finset.card_image_of_injective _ TokenKind.index_injective]

theorem HoldsExactly.mem_toList (h : s.HoldsExactly ks) : k ∈ s.toList ↔ k ∈ ks := by
  rw [toList, List.mem_filter, h.contains_iff, and_iff_right (TokenKind.mem_all k)]

theorem pairwise_toList (s : KindSet) : s.toList.Pairwise (·.index < ·.index) :=
  TokenKind.pairwise_all.filter _

/-! ## Sets by their making -/

/-- How a set is made. -/
inductive Recipe where
  | empty
  | ofList (ks : List TokenKind)
  | insert (r : Recipe) (k : TokenKind)
  | erase (r : Recipe) (k : TokenKind)
  | union (r r' : Recipe)

namespace Recipe

/-- The word that is made. -/
def word : Recipe → KindSet
  | empty => .empty
  | ofList ks => .ofList ks
  | insert r k => r.word.insert k
  | erase r k => r.word.erase k
  | union r r' => r.word.union r'.word

/-- The set that is meant. -/
def kinds : Recipe → Finset TokenKind
  | empty => ∅
  | ofList ks => ks.toFinset
  | insert r k => Insert.insert k r.kinds
  | erase r k => r.kinds.erase k
  | union r r' => r.kinds ∪ r'.kinds

theorem word_holdsExactly (r : Recipe) : r.word.HoldsExactly r.kinds := by
  induction r with
  | empty => exact holdsExactly_empty
  | ofList ks => exact holdsExactly_ofList ks
  | insert r k ih => exact ih.insert k
  | erase r k ih => exact ih.erase k
  | union r r' ih ih' => exact ih.union ih'

end Recipe

/-- However a set is made, the word is exactly the set that is meant: no bit is set beyond those
of the kinds, and all that can be asked of the word is answered as for the set. Two words are
equal when their sets have the same kinds, and the kinds of a word are listed in the order of the
declaration, each of them once. -/
theorem word_is_exactly_the_set (r : Recipe) :
    (∀ i, r.word.bits.getLsbD (TokenKind.count + i) = false) ∧
    (∀ k, r.word.contains k = true ↔ k ∈ r.kinds) ∧
    (∀ r' : Recipe, (r.word.includes r'.word = true ↔ r'.kinds ⊆ r.kinds) ∧
      (r.word = r'.word ↔ r.kinds = r'.kinds)) ∧
    (r.word.isEmpty = true ↔ r.kinds = ∅) ∧
    r.word.size = r.kinds.card ∧
    (∀ k, k ∈ r.word.toList ↔ k ∈ r.kinds) ∧
    r.word.toList.Pairwise (·.index < ·.index) := by
  have h := r.word_holdsExactly
  refine ⟨fun i => ?_, fun _ => h.contains_iff, fun r' => ?_, h.isEmpty_iff, h.size_eq,
    fun _ => h.mem_toList, pairwise_toList _⟩
  · rw [← Bool.not_eq_true, h]
    rintro ⟨k, -, hk⟩
    exact absurd k.index_lt_count (by omega)
  · exact ⟨h.includes_iff r'.word_holdsExactly, h.eq_iff r'.word_holdsExactly⟩

end KindSet

end PascalFront
