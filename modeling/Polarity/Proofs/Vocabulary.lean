import Mathlib.Data.Finset.Card
import Polarity.Vocabulary

/-!
# Vocabularies are ranked

The words of the documents have one ranking: a word with more occurrences comes
before a word with fewer, and among equals the word that is met first comes
first.  A vocabulary is the beginning of that ranking.  Nothing in its building
compares places; equal counts keep their order because distinct words are listed
as they are met and the sort is stable.
-/

namespace Polarity

/-! ## Stable sorting -/

/-- Items that compare equal stay in the relation that they were listed in. -/
private theorem pairwise_mergeSort_stable {τ : Type} (le : τ → τ → Bool) {listed : τ → τ → Prop}
    (htrans : ∀ a b c, le a b → le b c → le a c) (htotal : ∀ a b, le a b || le b a)
    {items : List τ} (hitems : items.Pairwise listed) :
    (items.mergeSort le).Pairwise fun a b => le a b ∧ (le b a → listed a b) := by
  -- The sort is the sort of the items with their places, where no two compare equal.
  have hsorted := List.pairwise_mergeSort (List.zipIdxLE_trans htrans) (List.zipIdxLE_total htotal)
    items.zipIdx
  have hplaces : ((items.zipIdx.mergeSort (List.zipIdxLE le)).map Prod.snd).Nodup := by
    rw [((List.mergeSort_perm _ _).map Prod.snd).nodup_iff, List.zipIdx_map_snd]
    exact List.nodup_range'
  rw [← List.mergeSort_zipIdx, List.pairwise_map]
  refine (hsorted.and (List.pairwise_map.mp hplaces)).imp_of_mem ?_
  rintro ⟨a, i⟩ ⟨b, j⟩ ha hb ⟨hle, hij⟩
  simp only [List.mem_mergeSort, List.mk_mem_zipIdx_iff_getElem?] at ha hb
  simp only [List.zipIdxLE] at hle
  split at hle
  · next hab =>
      refine ⟨hab, fun hba => ?_⟩
      simp only [hba, if_true, decide_eq_true_eq] at hle
      obtain ⟨hi, rfl⟩ := List.getElem?_eq_some_iff.mp ha
      obtain ⟨hj, rfl⟩ := List.getElem?_eq_some_iff.mp hb
      exact List.pairwise_iff_getElem.mp hitems i j hi hj (by omega)
  · contradiction

/-! ## Distinct words -/

private theorem mem_distinctFrom {seen : Std.HashSet String} {kept : List String}
    (words : List String)
    (hseen : ∀ word, seen.contains word = true ↔ word ∈ kept) (word : String) :
    word ∈ distinctFrom seen kept words ↔ word ∈ kept ∨ word ∈ words := by
  induction words generalizing seen kept with
  | nil => simp [distinctFrom]
  | cons first rest ih =>
      rw [distinctFrom]
      split
      · next hfirst =>
          rw [ih hseen, List.mem_cons]
          have := (hseen first).mp hfirst
          grind
      · have hinsert : ∀ word, (seen.insert first).contains word = true ↔ word ∈ first :: kept := by
          intro word
          rw [Std.HashSet.contains_insert, Bool.or_eq_true, hseen, List.mem_cons, beq_iff_eq,
            eq_comm]
        rw [ih hinsert, List.mem_cons, List.mem_cons, or_assoc, or_left_comm]

private theorem pairwise_distinctFrom {seen : Std.HashSet String} {kept past words : List String}
    (hseen : ∀ word, seen.contains word = true ↔ word ∈ past)
    (hkept : ∀ word ∈ kept, word ∈ past)
    (hordered : kept.Pairwise fun later earlier =>
      (past ++ words).idxOf earlier < (past ++ words).idxOf later) :
    (distinctFrom seen kept words).Pairwise fun earlier later =>
      (past ++ words).idxOf earlier < (past ++ words).idxOf later := by
  -- `past` is what has been read; a new word stands right behind it, and all kept words in it.
  induction words generalizing seen kept past with
  | nil => exact List.pairwise_reverse.mpr hordered
  | cons first rest ih =>
      rw [distinctFrom]
      have hnext : past ++ first :: rest = (past ++ [first]) ++ rest := by simp
      split
      · next hfirst =>
          rw [hnext] at hordered ⊢
          refine ih ?_ (fun word hword => by simp [hkept word hword]) hordered
          intro word
          rw [hseen, List.mem_append, List.mem_singleton]
          have := (hseen first).mp hfirst
          grind
      · next hfirst =>
          have hnew : first ∉ past := fun hmem => hfirst ((hseen first).mpr hmem)
          have hplace : (past ++ first :: rest).idxOf first = past.length := by
            rw [List.idxOf_append, if_neg hnew]
            simp
          have hbefore : ∀ word ∈ kept, (past ++ first :: rest).idxOf word < past.length := by
            intro word hword
            rw [List.idxOf_append, if_pos (hkept word hword)]
            exact List.idxOf_lt_length_of_mem (hkept word hword)
          have hordered : (first :: kept).Pairwise fun later earlier =>
              (past ++ first :: rest).idxOf earlier < (past ++ first :: rest).idxOf later :=
            List.pairwise_cons.mpr ⟨fun word hword => hplace ▸ hbefore word hword, hordered⟩
          rw [hnext] at hordered ⊢
          refine ih ?_ ?_ hordered
          · intro word
            rw [Std.HashSet.contains_insert, Bool.or_eq_true, hseen, List.mem_append,
              List.mem_singleton, beq_iff_eq, eq_comm, or_comm]
          · intro word hword
            rcases List.mem_cons.mp hword with rfl | hword
            · simp
            · simp [hkept word hword]

theorem mem_distinct (words : List String) (word : String) :
    word ∈ distinct words ↔ word ∈ words := by
  simp [distinct, mem_distinctFrom]

theorem pairwise_distinct (words : List String) :
    (distinct words).Pairwise fun earlier later => words.idxOf earlier < words.idxOf later := by
  have hordered := @pairwise_distinctFrom ∅ [] [] words (by simp) (by simp) List.Pairwise.nil
  simpa [distinct] using hordered

namespace Vocabulary

/-! ## Counting -/

private theorem getD_foldl_countWord (words : List String) (counts : Std.HashMap String Nat)
    (word : String) :
    (words.foldl countWord counts).getD word 0 = counts.getD word 0 + words.count word := by
  induction words generalizing counts with
  | nil => simp
  | cons first rest ih =>
      rw [List.foldl_cons, ih, countWord, Std.HashMap.getD_insert, List.count_cons]
      by_cases hfirst : first = word
      · simp [hfirst]
        omega
      · simp [hfirst]

theorem entries_tally (words : List String) :
    (tally words).entries = (distinct words).map fun word => (word, words.count word) := by
  simp [tally, annotate, getD_foldl_countWord]

/-! ## The ranking -/

def occurrences (documents : List Document) (word : String) : Nat :=
  (documents.flatMap Document.words).count word

/-- The place at which a word is met first when the documents are read one after another. -/
def firstPlace (documents : List Document) (word : String) : Nat :=
  (documents.flatMap Document.words).idxOf word

/-- More occurrences, or as many and met earlier. -/
def Outranks (documents : List Document) (left right : String) : Prop :=
  occurrences documents right < occurrences documents left ∨
    occurrences documents left = occurrences documents right ∧
      firstPlace documents left < firstPlace documents right

/-- The list of all words that occur, every word before those that it outranks. -/
structure IsRanking (documents : List Document) (ranking : List String) : Prop where
  mem_iff : ∀ word, word ∈ ranking ↔ ∃ document ∈ documents, word ∈ document.words
  outranks : ranking.Pairwise (Outranks documents)

variable {documents : List Document}

theorem Outranks.asymm {left right : String} (hleft : Outranks documents left right) :
    ¬Outranks documents right left := by
  unfold Outranks at hleft ⊢
  omega

theorem IsRanking.nodup {ranking : List String} (hranking : IsRanking documents ranking) :
    ranking.Nodup :=
  hranking.outranks.imp fun houtranks hequal => (hequal ▸ houtranks).asymm (hequal ▸ houtranks)

theorem IsRanking.unique {ranking other : List String} (hranking : IsRanking documents ranking)
    (hother : IsRanking documents other) : other = ranking := by
  have hperm : other.Perm ranking := by
    rw [List.perm_ext_iff_of_nodup hother.nodup hranking.nodup]
    exact fun word => (hother.mem_iff word).trans (hranking.mem_iff word).symm
  exact hperm.eq_of_pairwise (fun _ _ _ _ hleft hright => absurd hright hleft.asymm)
    hother.outranks hranking.outranks

theorem IsRanking.length_eq {ranking : List String} (hranking : IsRanking documents ranking) :
    ranking.length = (documents.flatMap Document.words).toFinset.card := by
  rw [← List.toFinset_card_of_nodup hranking.nodup]
  congr 1
  ext word
  simp [hranking.mem_iff]

theorem mem_entries_ranked {words : List String} {entry : String × Nat}
    (hentry : entry ∈ (tally words).ranked.entries) :
    entry.1 ∈ words ∧ entry.2 = words.count entry.1 := by
  rw [ranked, List.mem_mergeSort, entries_tally] at hentry
  obtain ⟨word, hword, rfl⟩ := List.mem_map.mp hentry
  exact ⟨(mem_distinct words word).mp hword, rfl⟩

theorem isRanking_ranked (documents : List Document) :
    IsRanking documents (tally (documents.flatMap Document.words)).ranked.words := by
  constructor
  · intro word
    simp [words, ranked, entries_tally, mem_distinct]
  · have hlisted : (tally (documents.flatMap Document.words)).entries.Pairwise fun left right =>
        firstPlace documents left.1 < firstPlace documents right.1 := by
      rw [entries_tally, List.pairwise_map]
      exact pairwise_distinct _
    have hsorted := pairwise_mergeSort_stable (fun left right => decide (right.2 ≤ left.2))
      (by simp only [decide_eq_true_eq]; omega)
      (by simp only [Bool.or_eq_true, decide_eq_true_eq]; omega) hlisted
    rw [words, List.pairwise_map]
    refine hsorted.imp_of_mem ?_
    intro left right hleft hright hpair
    simp only [decide_eq_true_eq] at hpair
    have hleftCount := (mem_entries_ranked hleft).2
    have hrightCount := (mem_entries_ranked hright).2
    unfold Outranks
    rw [occurrences, occurrences, ← hleftCount, ← hrightCount]
    omega

private theorem entries_ranked (documents : List Document) :
    (tally (documents.flatMap Document.words)).ranked.entries =
      (tally (documents.flatMap Document.words)).ranked.words.map fun word =>
        (word, occurrences documents word) := by
  rw [words, List.map_map]
  refine (List.map_id _).symm.trans (List.map_congr_left ?_)
  intro entry hentry
  simp only [id_eq, Function.comp_apply, occurrences, ← (mem_entries_ranked hentry).2]

theorem entries_build (documents : List Document) (size : Nat) :
    (build documents size).entries =
      (tally (documents.flatMap Document.words)).ranked.entries.take size := rfl

theorem words_build (documents : List Document) (size : Nat) :
    (build documents size).words =
      (tally (documents.flatMap Document.words)).ranked.words.take size := by
  rw [words, entries_build, List.map_take, words]

theorem IsRanking.outranks_of_mem_take {ranking : List String}
    (hranking : IsRanking documents ranking) {size : Nat} {kept word : String}
    (hkept : kept ∈ ranking.take size) (hword : word ∈ ranking)
    (hleft : word ∉ ranking.take size) : Outranks documents kept word := by
  have hordered := hranking.outranks
  rw [← List.take_append_drop size ranking] at hordered hword
  have hdropped : word ∈ ranking.drop size := (List.mem_append.mp hword).resolve_left hleft
  exact (List.pairwise_append.mp hordered).2.2 kept hkept word hdropped

/--
A vocabulary is the beginning of the one ranking of all words, each with its
exact count, and a word is left out only if every word that was kept outranks it.
-/
theorem build_eq_take_ranking (documents : List Document) (size : Nat) :
    ∃ ranking, IsRanking documents ranking ∧
      (∀ other, IsRanking documents other → other = ranking) ∧
      ranking.length = (documents.flatMap Document.words).toFinset.card ∧
      (build documents size).entries =
        (ranking.map fun word => (word, occurrences documents word)).take
          (min size (documents.flatMap Document.words).toFinset.card) ∧
      (∀ entry ∈ (build documents size).entries, entry.2 = occurrences documents entry.1) ∧
      ∀ document ∈ documents, ∀ word ∈ document.words, word ∉ (build documents size).words →
        ∀ kept ∈ (build documents size).words, Outranks documents kept word := by
  have hranking := isRanking_ranked documents
  have hentries := entries_ranked documents
  refine ⟨_, hranking, fun other => hranking.unique, hranking.length_eq, ?_, ?_, ?_⟩
  · rw [entries_build, hentries, ← hranking.length_eq, ← List.length_map, List.take_eq_take_min]
  · intro entry hentry
    rw [entries_build, hentries] at hentry
    obtain ⟨word, -, rfl⟩ := List.mem_map.mp (List.mem_of_mem_take hentry)
    rfl
  · intro document hdocument word hword hleft kept hkept
    rw [words_build] at hleft hkept
    have hmem := (hranking.mem_iff word).mpr ⟨document, hdocument, hword⟩
    exact hranking.outranks_of_mem_take hkept hmem hleft

example :
    (build [.ofWords ["zebra", "apple"], .ofWords ["mango", "fig", "apple", "zebra", "mango"]]
      2).entries = [("zebra", 2), ("apple", 2)] := by
  cbv

end Vocabulary

end Polarity
