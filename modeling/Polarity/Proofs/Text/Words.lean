import Mathlib
import Polarity.Proofs.Text.Lowercase
import Polarity.Text.Words

/-!
# The words of a text

A text can be cut at any of its blanks: its words are those of the two sides.  So
it does not matter whether a text is lowercased as a whole or piece by piece, and
the words of a text, put together with spaces, have themselves as words.
-/

namespace Polarity.Text

/-- What holds of texts without blanks, and of a text if it holds of both sides of a blank. -/
@[elab_as_elim]
theorem blank_induction {motive : List Char → Prop}
    (plain : ∀ text, (∀ char ∈ text, isBlank char = false) → motive text)
    (cut : ∀ left blank right, isBlank blank = true → motive left → motive right →
      motive (left ++ blank :: right))
    (text : List Char) : motive text := by
  induction hlength : text.length using Nat.strong_induction_on generalizing text with
  | _ length ih =>
      by_cases hplain : ∀ char ∈ text, isBlank char = false
      · exact plain text hplain
      · push Not at hplain
        obtain ⟨blank, hmem, hblank⟩ := hplain
        obtain ⟨left, right, rfl⟩ := List.append_of_mem hmem
        rw [List.length_append, List.length_cons] at hlength
        exact cut left blank right (by simpa using hblank) (ih left.length (by omega) left rfl)
          (ih right.length (by omega) right rfl)

/-! ## Pieces -/

theorem pieces_append_blank {blank : Char} (hblank : isBlank blank = true)
    (left right : List Char) : pieces (left ++ blank :: right) = pieces left ++ pieces right := by
  rw [pieces, List.splitOnP_append_cons left right hblank, List.filter_append]
  rfl

theorem pieces_of_forall {text : List Char} (htext : ∀ char ∈ text, isBlank char = false) :
    pieces text = if text = [] then [] else [text] := by
  rw [pieces, List.splitOnP_eq_singleton htext]
  cases text <;> simp

private theorem mem_pieces {text piece : List Char} (hpiece : piece ∈ pieces text) :
    piece ≠ [] ∧ ∀ char ∈ piece, isBlank char = false := by
  induction text using blank_induction with
  | plain text htext =>
      rw [pieces_of_forall htext] at hpiece
      split at hpiece
      · simp at hpiece
      · next hsome =>
          obtain rfl := List.mem_singleton.mp hpiece
          exact ⟨hsome, htext⟩
  | cut left blank right hblank hleft hright =>
      rw [pieces_append_blank hblank, List.mem_append] at hpiece
      exact hpiece.elim hleft hright

theorem pieces_lowercase (text : List Char) :
    pieces (lowercase text) = (pieces text).map lowercase := by
  induction text using blank_induction with
  | plain text htext =>
      rw [pieces_of_forall (isBlank_of_mem_lowercase htext), pieces_of_forall htext]
      by_cases hnil : text = [] <;> simp [hnil, lowercase_eq_nil_iff]
  | cut left blank right hblank hleft hright =>
      rw [lowercase_append_blank hblank, pieces_append_blank hblank, pieces_append_blank hblank,
        hleft, hright, List.map_append]

/-! ## Words -/

theorem tokenize_eq_map (text : String) :
    tokenize text = (pieces text.toList).map fun piece => String.ofList (lowercase piece) := by
  rw [tokenize, pieces_lowercase, List.map_map]
  rfl

theorem tokenize_append_blank {blank : Char} (hblank : isBlank blank = true)
    (left right : String) :
    tokenize (left ++ String.singleton blank ++ right) = tokenize left ++ tokenize right := by
  have htext : (left ++ String.singleton blank ++ right).toList =
      left.toList ++ blank :: right.toList := by simp
  rw [tokenize_eq_map, htext, pieces_append_blank hblank, List.map_append, ← tokenize_eq_map,
    ← tokenize_eq_map]

/--
The words of a text that is cut at a blank are those of its two sides, and those of any
text are its pieces, each lowercased without regard to the others.
-/
theorem tokenize_cuts_at_blanks :
    (∀ (left right : String) (blank : Char), isBlank blank = true →
      tokenize (left ++ String.singleton blank ++ right) = tokenize left ++ tokenize right) ∧
    ∀ text : String,
      tokenize text = (pieces text.toList).map fun piece => String.ofList (lowercase piece) :=
  ⟨fun left right _ hblank => tokenize_append_blank hblank left right, tokenize_eq_map⟩

/-- A sigma before an em space is final whatever follows, and one after it is not. -/
theorem sigmas_cut_at_em_space :
    isBlank '\u2003' = true ∧
      tokenize ("ΟΔΟΣ" ++ String.singleton '\u2003' ++ "ΣΟΦΟΣ") =
        tokenize "ΟΔΟΣ" ++ tokenize "ΣΟΦΟΣ" ∧
      tokenize "ΟΔΟΣ" ++ tokenize "ΣΟΦΟΣ" = ["οδος", "σοφος"] :=
  ⟨by decide +kernel, tokenize_cuts_at_blanks.1 "ΟΔΟΣ" "ΣΟΦΟΣ" '\u2003' (by decide +kernel),
    by decide +kernel⟩

/-! ## Words as a normal form -/

private theorem plain_of_mem_tokenize {text word : String} (hword : word ∈ tokenize text) :
    word ≠ "" ∧ (∀ char ∈ word.toList, isBlank char = false) ∧
      lowercase word.toList = word.toList := by
  rw [tokenize_eq_map] at hword
  obtain ⟨piece, hpiece, rfl⟩ := List.mem_map.mp hword
  obtain ⟨hsome, hplain⟩ := mem_pieces hpiece
  rw [String.toList_ofList]
  refine ⟨?_, isBlank_of_mem_lowercase hplain, lowercase_lowercase piece⟩
  simpa [lowercase_eq_nil_iff] using hsome

private theorem tokenize_of_mem_tokenize {text word : String} (hword : word ∈ tokenize text) :
    tokenize word = [word] := by
  obtain ⟨hsome, hplain, hlower⟩ := plain_of_mem_tokenize hword
  have hnil : word.toList ≠ [] := by simpa using hsome
  rw [tokenize, hlower, pieces_of_forall hplain, if_neg hnil]
  simp

private theorem tokenize_intercalate (words : List String) :
    tokenize (" ".intercalate words) = words.flatMap tokenize := by
  induction words with
  | nil => decide +kernel
  | cons word rest ih =>
      cases rest with
      | nil => simp
      | cons next rest =>
          have hspace : isBlank ' ' = true := by decide
          rw [String.intercalate_cons_cons, List.flatMap_cons, ← ih]
          exact tokenize_append_blank hspace word _

/--
Words are not empty, hold no blank and are lowercase; put together with single spaces
they are the words of what comes out.
-/
theorem words_are_normal_form (text : String) :
    (∀ word ∈ tokenize text, word ≠ "" ∧ (∀ char ∈ word.toList, isBlank char = false) ∧
      lowercase word.toList = word.toList) ∧
    tokenize (" ".intercalate (tokenize text)) = tokenize text := by
  refine ⟨fun word hword => plain_of_mem_tokenize hword, ?_⟩
  calc tokenize (" ".intercalate (tokenize text))
      = (tokenize text).flatMap tokenize := tokenize_intercalate (tokenize text)
    _ = (tokenize text).flatMap fun word => [word] :=
        List.flatMap_congr fun word hword => tokenize_of_mem_tokenize hword
    _ = tokenize text := List.flatMap_singleton' (tokenize text)

theorem dotted_word_is_normal_form :
    "i̇ς" ∈ tokenize "İΣ\u2003Ά" ∧
      ("i̇ς" ≠ "" ∧ (∀ char ∈ "i̇ς".toList, isBlank char = false) ∧
        lowercase "i̇ς".toList = "i̇ς".toList) ∧
      tokenize (" ".intercalate (tokenize "İΣ\u2003Ά")) = ["i̇ς", "ά"] := by
  have hwords : tokenize "İΣ\u2003Ά" = ["i̇ς", "ά"] := by decide +kernel
  have hword : "i̇ς" ∈ tokenize "İΣ\u2003Ά" := by
    rw [hwords]
    exact List.mem_cons_self
  have hnormal := words_are_normal_form "İΣ\u2003Ά"
  exact ⟨hword, hnormal.1 "i̇ς" hword, hnormal.2.trans hwords⟩

end Polarity.Text
