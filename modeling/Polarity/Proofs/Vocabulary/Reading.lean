import Mathlib
import Polarity.Proofs.Json.Compact
import Polarity.Proofs.Vocabulary.Places

/-!
# Vocabularies read from texts

A vocabulary is read from a list of words with counts.  The list may repeat a
word: the word is then placed where it is given first and counted as it is given
last.  However a vocabulary came about, its places number its words.  The compact
text of a vocabulary or of a document is read back without loss.
-/

namespace Polarity

open Json (Value)

/-! ## Repeated words -/

private theorem distinctFrom_eq (seen : Std.HashSet String) (kept words : List String) :
    distinctFrom seen kept words =
      kept.reverse ++ (words.filter fun word => !seen.contains word).eraseDups := by
  induction words generalizing seen kept with
  | nil => simp [distinctFrom]
  | cons word rest ih =>
      rw [distinctFrom]
      split
      · next hseen => rw [ih, List.filter_cons_of_neg (by simp [hseen])]
      · next hnew =>
          have hrest : (fun other => !(seen.insert word).contains other) =
              fun other => !other == word && !seen.contains other := by
            funext other
            rw [Std.HashSet.contains_insert, Bool.not_or, Bool.beq_comm]
          rw [ih, List.filter_cons_of_pos (by simpa using hnew), List.eraseDups_cons,
            List.filter_filter, hrest, List.reverse_cons, List.append_assoc, List.singleton_append]

theorem distinct_eq_eraseDups (words : List String) : distinct words = words.eraseDups := by
  simp [distinct, distinctFrom_eq]

private theorem eraseDups_of_nodup {words : List String} (hwords : words.Nodup) :
    words.eraseDups = words := by
  induction words with
  | nil => rfl
  | cons word rest ih =>
      obtain ⟨hword, hrest⟩ := List.nodup_cons.mp hwords
      have hkept : rest.filter (fun other => !other == word) = rest := by
        rw [List.filter_eq_self]
        intro other hother
        simpa using fun hequal : other = word => hword (hequal ▸ hother)
      rw [List.eraseDups_cons, hkept, ih hrest]

private theorem getElem?_insertMany (counts : Std.HashMap String Nat) (pairs : List (String × Nat))
    (word : String) :
    (counts.insertMany pairs)[word]? = (pairs.reverse.lookup word).or counts[word]? := by
  induction pairs generalizing counts with
  | nil => simp
  | cons pair rest ih =>
      obtain ⟨first, count⟩ := pair
      rw [Std.HashMap.insertMany_cons, ih, Std.HashMap.getElem?_insert, List.reverse_cons,
        List.lookup_append, Option.or_assoc]
      congr 1
      by_cases hword : first = word
      · simp [hword]
      · have hother : (word == first) = false := beq_false_of_ne (Ne.symm hword)
        simp [hword, List.lookup, hother]

namespace Vocabulary

theorem eq_of_entries {left right : Vocabulary} (hentries : left.entries = right.entries) :
    left = right := by
  cases left
  cases right
  cases hentries
  rfl

theorem entries_ofPairs (pairs : List (String × Nat)) :
    (ofPairs pairs).entries = (pairs.map Prod.fst).eraseDups.map fun word =>
      (word, (pairs.reverse.lookup word).getD 0) := by
  simp [ofPairs, annotate, distinct_eq_eraseDups, Std.HashMap.getD_eq_getD_getElem?,
    Std.HashMap.ofList_eq_insertMany_empty, getElem?_insertMany]

theorem words_ofPairs (pairs : List (String × Nat)) :
    (ofPairs pairs).words = (pairs.map Prod.fst).eraseDups := by
  rw [words, entries_ofPairs, List.map_map]
  exact List.map_id _

theorem count?_ofPairs (pairs : List (String × Nat)) (word : String) :
    (ofPairs pairs).count? word = pairs.reverse.lookup word := by
  cases hlast : pairs.reverse.lookup word with
  | none =>
      rw [count?_eq_none_iff, words_ofPairs, List.mem_eraseDups]
      simp only [List.lookup_eq_none_iff, List.mem_reverse, bne_iff_ne] at hlast
      intro hword
      obtain ⟨pair, hpair, rfl⟩ := List.mem_map.mp hword
      exact hlast pair hpair rfl
  | some count =>
      obtain ⟨before, after, hpairs, -⟩ := List.lookup_eq_some_iff.mp hlast
      have hpair : (word, count) ∈ pairs := by
        rw [← List.mem_reverse, hpairs]
        simp
      rw [count?_eq_some_iff, entries_ofPairs, List.mem_map]
      refine ⟨word, List.mem_eraseDups.mpr (List.mem_map_of_mem hpair), ?_⟩
      rw [hlast, Option.getD_some]

/-! ## Values -/

def pairs? (value : Value) : Option (List (String × Nat)) := do
  match ← value.fields? fieldNames with
  | [some pairs] => pairs.list? pairOfJson?
  | _ => none

private theorem ofJson?_eq (value : Value) : ofJson? value = (pairs? value).map ofPairs := by
  unfold ofJson? pairs?
  cases value.fields? fieldNames with
  | none => rfl
  | some fields =>
      match fields with
      | [some list] =>
          simp only [Option.bind_eq_bind, Option.bind_some]
          cases list.list? pairOfJson? <;> rfl
      | [] | [none] | none :: _ :: _ | some _ :: _ :: _ => rfl

def listing (pairs : List (String × Nat)) : Value :=
  .record [("word_counts", .ofList pairToJson pairs)]

theorem toJson_eq (vocabulary : Vocabulary) : vocabulary.toJson = listing vocabulary.entries := rfl

private theorem wellFormed_listing (pairs : List (String × Nat)) : (listing pairs).WellFormed := by
  have hpair : ∀ pair, (pairToJson pair).WellFormed := by
    intro pair
    rw [pairToJson, Json.wellFormed_array]
    simp [Value.wellFormed_ofText, Value.wellFormed_ofNat]
  apply Value.wellFormed_record
  rw [List.forall_mem_singleton]
  exact Value.wellFormed_ofList hpair pairs

private theorem pairOfJson?_pairToJson {pair : String × Nat} (hpair : pair.2 < UInt64.size) :
    pairOfJson? (pairToJson pair) = some pair := by
  simp [pairToJson, pairOfJson?, Value.text?_ofText, Value.nat?_ofNat hpair]

private theorem pairs?_listing {pairs : List (String × Nat)}
    (hcounts : ∀ pair ∈ pairs, pair.2 < UInt64.size) : pairs? (listing pairs) = some pairs := by
  have hlist := Value.list?_ofList_of_mem fun pair hpair =>
    pairOfJson?_pairToJson (hcounts pair hpair)
  have hnames : ([("word_counts", Value.ofList pairToJson pairs)].map Prod.fst).Nodup :=
    List.nodup_singleton _
  rw [pairs?, listing, Value.fields?_record hnames]
  exact hlist

theorem read_listing {pairs : List (String × Nat)}
    (hcounts : ∀ pair ∈ pairs, pair.2 < UInt64.size) :
    (Value.parse? (listing pairs).compact).bind ofJson? = some (ofPairs pairs) := by
  rw [Json.parse?_compact (wellFormed_listing pairs), Option.bind_some, ofJson?_eq,
    pairs?_listing hcounts, Option.map_some]

/-! ## Places and words -/

/-- The places of a vocabulary number its words, and each word has its count. -/
structure Numbered (vocabulary : Vocabulary) : Prop where
  distinct : vocabulary.words.Nodup
  inverse : ∀ place word,
    vocabulary.word? place = some word ↔ vocabulary.place? word = some place
  contained : ∀ word, (vocabulary.place? word).isSome = vocabulary.contains word
  counted : ∀ word, (vocabulary.place? word).isSome = (vocabulary.count? word).isSome
  bounded : ∀ place, (vocabulary.word? place).isSome ↔ place < vocabulary.size
  listed : ∀ place, vocabulary.entries[place]? = (vocabulary.word? place).bind fun word =>
    (vocabulary.count? word).map fun count => (word, count)

theorem isSome_place? (vocabulary : Vocabulary) (word : String) :
    (vocabulary.place? word).isSome = (vocabulary.count? word).isSome := by
  rw [Bool.eq_iff_iff, Option.isSome_iff_ne_none, Option.isSome_iff_ne_none, ne_eq, ne_eq,
    place?_eq_none_iff, count?_eq_none_iff]

theorem numbered (vocabulary : Vocabulary) : vocabulary.Numbered where
  distinct := vocabulary.nodup
  inverse _ _ := place?_eq_some_iff.symm
  contained := vocabulary.isSome_place?
  counted := vocabulary.isSome_place?
  bounded place := by simp [word?, size]
  listed place := by
    rw [word?]
    cases hentry : vocabulary.entries[place]? with
    | none => rfl
    | some entry =>
        have hcount := count?_eq_some_iff.mpr (List.mem_of_getElem? hentry)
        simp [hcount]

/--
However a vocabulary came about, its places number its words.  If it was read from a
text, every word stands where the text gives it first, with the count that the text
gives it last.
-/
theorem places_and_words_are_inverse :
    (∀ (documents : List Document) (size : Nat), (build documents size).Numbered) ∧
    ∀ (text : String) (vocabulary : Vocabulary),
      (Value.parse? text).bind ofJson? = some vocabulary →
      vocabulary.Numbered ∧ ∃ pairs, (Value.parse? text).bind pairs? = some pairs ∧
        vocabulary.words = (pairs.map Prod.fst).eraseDups ∧
        ∀ word, vocabulary.count? word = pairs.reverse.lookup word := by
  refine ⟨fun documents size => numbered _, ?_⟩
  intro text vocabulary hread
  refine ⟨numbered vocabulary, ?_⟩
  obtain ⟨value, hvalue, hread⟩ := Option.bind_eq_some_iff.mp hread
  rw [ofJson?_eq] at hread
  obtain ⟨pairs, hpairs, rfl⟩ := Option.map_eq_some_iff.mp hread
  exact ⟨pairs, by rw [hvalue, Option.bind_some, hpairs], words_ofPairs pairs, count?_ofPairs pairs⟩

def repeatedWords : List (String × Nat) := [("good", 1), ("bad", 2), ("good", 7)]

theorem repeatedWords_are_numbered :
    ∃ vocabulary,
      (Value.parse? "\x7b\"word_counts\":[[\"good\",1],[\"bad\",2],[\"good\",7]]\x7d").bind
        ofJson? = some vocabulary ∧
      vocabulary.words = ["good", "bad"] ∧ vocabulary.count? "good" = some 7 ∧
      vocabulary.place? "bad" = some 1 ∧ vocabulary.word? 2 = none := by
  have htext : "\x7b\"word_counts\":[[\"good\",1],[\"bad\",2],[\"good\",7]]\x7d" =
      (listing repeatedWords).compact := by decide
  have hcounts : ∀ pair ∈ repeatedWords, pair.2 < UInt64.size := by decide
  have hread := read_listing hcounts
  obtain ⟨hnumbered, pairs, hpairs, hwords, hcount⟩ := places_and_words_are_inverse.2 _ _ hread
  rw [Json.parse?_compact (wellFormed_listing repeatedWords), Option.bind_some,
    pairs?_listing hcounts] at hpairs
  obtain rfl := Option.some.inj hpairs
  have hlisted : (ofPairs repeatedWords).words = ["good", "bad"] := hwords.trans (by decide)
  refine ⟨_, htext ▸ hread, hlisted, (hcount "good").trans (by decide), ?_, ?_⟩
  · rw [← hnumbered.inverse, word?_eq_getElem?, hlisted]
    rfl
  · rw [word?_eq_getElem?, hlisted]
    rfl

/-! ## Compact texts -/

private theorem ofPairs_entries (vocabulary : Vocabulary) :
    ofPairs vocabulary.entries = vocabulary := by
  apply eq_of_entries
  have hwords : (vocabulary.entries.map Prod.fst).eraseDups = vocabulary.entries.map Prod.fst :=
    eraseDups_of_nodup vocabulary.nodup
  rw [entries_ofPairs, hwords, List.map_map]
  refine (List.map_congr_left fun entry hentry => ?_).trans (List.map_id _)
  -- Counts are taken from the end of the list, and its reverse is a vocabulary as well.
  let reversed : Vocabulary := ⟨vocabulary.entries.reverse, by simpa using vocabulary.nodup⟩
  have hcount : reversed.count? entry.1 = some entry.2 :=
    count?_eq_some_iff.mpr (List.mem_reverse.mpr hentry)
  rw [count?] at hcount
  simp [reversed, hcount]

end Vocabulary

namespace Document

theorem wellFormed_toJson (document : Document) : document.toJson.WellFormed := by
  apply Value.wellFormed_record
  rw [List.forall_mem_cons, List.forall_mem_singleton]
  exact ⟨Value.wellFormed_ofText _, Value.wellFormed_ofList Value.wellFormed_ofText _⟩

theorem ofJson?_toJson (document : Document) : ofJson? document.toJson = some document := by
  have hnames : ([("source", Value.ofText document.source),
      ("tokens", Value.ofList .ofText document.words)].map Prod.fst).Nodup := by simp
  have hfields : document.toJson.fields? fieldNames =
      some [some (.ofText document.source), some (.ofList .ofText document.words)] :=
    Value.fields?_record hnames fieldNames
  have hwords := Value.list?_ofList Value.text?_ofText document.words
  simp [ofJson?, hfields, Value.text?_ofText, hwords]

end Document

/--
A vocabulary whose counts fit 64 bits is read back from its compact text with every
word at its place and with its count, and a document with its source and its words.
-/
theorem compact_texts_are_read_back :
    (∀ vocabulary : Vocabulary, (∀ entry ∈ vocabulary.entries, entry.2 < UInt64.size) →
      (Value.parse? vocabulary.toJson.compact).bind Vocabulary.ofJson? = some vocabulary) ∧
    ∀ document : Document,
      (Value.parse? document.toJson.compact).bind Document.ofJson? = some document := by
  constructor
  · intro vocabulary hcounts
    rw [Vocabulary.toJson_eq, Vocabulary.read_listing hcounts, Vocabulary.ofPairs_entries]
  · intro document
    rw [Json.parse?_compact document.wellFormed_toJson, Option.bind_some, Document.ofJson?_toJson]

def unusualWords : Vocabulary :=
  ⟨[("\"quoted\\", 18446744073709551615), ("\x00\n\x1f", 0), ("𝔘é", 3)], by decide⟩

theorem unusualWords_are_read_back :
    (∀ entry ∈ unusualWords.entries, entry.2 < UInt64.size) ∧
      (Value.parse? unusualWords.toJson.compact).bind Vocabulary.ofJson? = some unusualWords := by
  have hcounts : ∀ entry ∈ unusualWords.entries, entry.2 < UInt64.size := by decide
  exact ⟨hcounts, compact_texts_are_read_back.1 unusualWords hcounts⟩

end Polarity
