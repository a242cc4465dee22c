import Mathlib
import Polarity.Text.Lowercase

/-!
# Lowercase forms and blanks

Three facts about the tables carry everything that is said of lowercase texts.  No
blank is cased, case-ignorable or changed by lowercasing; no lowercase form is a
blank; and a lowercase form is its own lowercase form.  The tables are intervals and
runs, and each fact compares them in pairs instead of going through the characters.

So a blank stops every scan for a cased neighbour, and the two sides of a blank are
lowercased apart.
-/

namespace Polarity.Text

/-! ## Intervals that are apart -/

def Intervals.apart (left right : Intervals) : Bool :=
  left.all fun first => right.all fun second =>
    first.2.blt second.1 || second.2.blt first.1

theorem Intervals.covers_eq_true {intervals : Intervals} {code : Nat} :
    intervals.covers code = true ↔
      ∃ interval ∈ intervals, interval.1 ≤ code ∧ code ≤ interval.2 := by
  simp [covers]

theorem Intervals.covers_eq_false {left right : Intervals} {code : Nat}
    (hapart : left.apart right = true) (hcode : left.covers code = true) :
    right.covers code = false := by
  obtain ⟨first, hfirst, hlow, hhigh⟩ := covers_eq_true.mp hcode
  rw [← Bool.not_eq_true, covers_eq_true]
  rintro ⟨second, hsecond, hlow', hhigh'⟩
  have hpair := List.all_eq_true.mp (List.all_eq_true.mp hapart first hfirst) second hsecond
  simp only [Bool.or_eq_true, Nat.blt_eq] at hpair
  omega

private theorem isCaseIgnorable_of_isBlank {char : Char} (hblank : isBlank char = true) :
    isCaseIgnorable char = false :=
  Intervals.covers_eq_false (show blankIntervals.apart caseIgnorableIntervals = true by
    decide +kernel) hblank

private theorem isCased_of_isBlank {char : Char} (hblank : isBlank char = true) :
    isCased char = false :=
  Intervals.covers_eq_false (show blankIntervals.apart casedIntervals = true by
    decide +kernel) hblank

/-! ## Runs -/

namespace LowercaseRun

def sources (run : LowercaseRun) : Nat × Nat := (run.first, run.last)

def forms (run : LowercaseRun) : Nat × Nat := (run.target, run.target + (run.last - run.first))

private theorem image?_eq_some {run : LowercaseRun} {code lower : Nat} :
    run.image? code = some lower ↔
      (run.first ≤ code ∧ code ≤ run.last ∧ (code - run.first) % run.stride = 0) ∧
        run.target + (code - run.first) = lower := by
  unfold image?
  split <;> simp_all [and_assoc]

/--
No form in the one run is a source in the other: the intervals do not meet, or one
of the two holds even numbers and the other odd ones.
-/
def settles (run next : LowercaseRun) : Bool :=
  (run.target + (run.last - run.first)).blt next.first || next.last.blt run.target ||
    (next.stride == 2 && (run.stride == 2 || run.first == run.last) &&
      (run.target + next.first) % 2 == 1)

private theorem image?_of_settles {run next : LowercaseRun} {code lower : Nat}
    (hsettles : run.settles next = true) (himage : run.image? code = some lower) :
    next.image? lower = none := by
  obtain ⟨⟨hfirst, hlast, hstride⟩, hlower⟩ := image?_eq_some.mp himage
  rw [Option.eq_none_iff_forall_ne_some]
  intro other hother
  obtain ⟨⟨hfirst', hlast', hstride'⟩, -⟩ := image?_eq_some.mp hother
  simp only [settles, Bool.or_eq_true, Bool.and_eq_true, Nat.blt_eq, beq_iff_eq] at hsettles
  rcases hsettles with hapart | ⟨⟨htwo, htwo' | hone⟩, hodd⟩
  · omega
  · rw [htwo] at hstride'
    rw [htwo'] at hstride
    omega
  · rw [htwo] at hstride'
    omega

end LowercaseRun

/-- The runs beyond ASCII, that of ASCII, and U+0130 led to each of the two characters of its form. -/
def allRuns : List LowercaseRun :=
  ⟨0x41, 0x5A, 1, 0x61⟩ :: ⟨0x130, 0x130, 1, 0x69⟩ :: ⟨0x130, 0x130, 1, 0x307⟩ :: lowercaseRuns

def capitalIntervals : Intervals := allRuns.map LowercaseRun.sources

def formIntervals : Intervals := allRuns.map LowercaseRun.forms

private theorem covers_of_image? {run : LowercaseRun} {code lower : Nat} (hrun : run ∈ allRuns)
    (himage : run.image? code = some lower) :
    capitalIntervals.covers code = true ∧ formIntervals.covers lower = true := by
  obtain ⟨⟨hfirst, hlast, -⟩, hlower⟩ := LowercaseRun.image?_eq_some.mp himage
  rw [Intervals.covers_eq_true, Intervals.covers_eq_true]
  refine ⟨⟨run.sources, List.mem_map_of_mem hrun, hfirst, hlast⟩,
    ⟨run.forms, List.mem_map_of_mem hrun, ?_⟩⟩
  simp only [LowercaseRun.forms]
  omega

/-- The code is in the lowercase form of some other character. -/
def IsForm (code : Nat) : Prop := ∃ run ∈ allRuns, ∃ source, run.image? source = some code

namespace IsForm

variable {code : Nat}

theorem covers (hform : IsForm code) : formIntervals.covers code = true := by
  obtain ⟨run, hrun, source, hsource⟩ := hform
  exact (covers_of_image? hrun hsource).2

private theorem toNat_ofNat (hform : IsForm code) : (Char.ofNat code).toNat = code := by
  obtain ⟨interval, hinterval, hlow, hhigh⟩ := Intervals.covers_eq_true.mp hform.covers
  have hall : ∀ interval ∈ formIntervals,
      interval.2 < 0xD800 ∨ 0xDFFF < interval.1 ∧ interval.2 < 0x110000 := by decide +kernel
  have hvalid : code.isValidChar := by
    have hbounds := hall interval hinterval
    unfold Nat.isValidChar
    omega
  rw [Char.ofNat, dif_pos hvalid]
  rfl

private theorem image?_eq_none (hform : IsForm code) {next : LowercaseRun}
    (hnext : next ∈ allRuns) :
    next.image? code = none := by
  obtain ⟨run, hrun, source, hsource⟩ := hform
  have hsettles : (allRuns.all fun run => allRuns.all run.settles) = true := by decide +kernel
  exact LowercaseRun.image?_of_settles
    (List.all_eq_true.mp (List.all_eq_true.mp hsettles run hrun) next hnext) hsource

end IsForm

/-! ## The lowercase form of one character -/

/-- The character stands in a run, and its lowercase form is made of forms. -/
structure Changes (char : Char) : Prop where
  capital : ∃ run ∈ allRuns, ∃ lower, run.image? char.toNat = some lower
  ne_nil : lowerChar char ≠ []
  forms : ∀ other ∈ lowerChar char, IsForm other.toNat

private theorem changes_of_image? {char : Char} {lower : Nat} (run : LowercaseRun)
    (hrun : run ∈ allRuns)
    (himage : run.image? char.toNat = some lower) (hlower : lowerChar char = [Char.ofNat lower]) :
    Changes char where
  capital := ⟨run, hrun, lower, himage⟩
  ne_nil := by simp [hlower]
  forms := by
    have hform : IsForm lower := ⟨run, hrun, char.toNat, himage⟩
    simpa [hlower, hform.toNat_ofNat] using hform

theorem lowerChar_cases (char : Char) : lowerChar char = [char] ∨ Changes char := by
  by_cases hascii : char.toNat < 0x80
  · by_cases hcapital : 0x41 ≤ char.toNat ∧ char.toNat ≤ 0x5A
    · right
      apply changes_of_image? ⟨0x41, 0x5A, 1, 0x61⟩ List.mem_cons_self
      · exact LowercaseRun.image?_eq_some.mpr ⟨⟨hcapital.1, hcapital.2, Nat.mod_one _⟩, rfl⟩
      · have hcode : 0x61 + (char.toNat - 0x41) = char.toNat + 0x20 := by omega
        simp [lowerChar, hascii, hcapital, hcode]
    · left
      simp [lowerChar, hascii, hcapital]
  · by_cases hdotted : char.toNat = 0x130
    · right
      have hlower : lowerChar char = ['i', Char.ofNat 0x307] := by simp [lowerChar, hdotted]
      have hletter : IsForm 0x69 := ⟨⟨0x130, 0x130, 1, 0x69⟩, by simp [allRuns], 0x130, rfl⟩
      have hdot : IsForm 0x307 := ⟨⟨0x130, 0x130, 1, 0x307⟩, by simp [allRuns], 0x130, rfl⟩
      refine ⟨⟨⟨0x130, 0x130, 1, 0x69⟩, by simp [allRuns], 0x69, by rw [hdotted]; rfl⟩, ?_, ?_⟩
      · simp [hlower]
      · rw [hlower]
        simpa using ⟨hletter, hdot⟩
    · cases hfound : lowercaseRuns.findSome? (·.image? char.toNat) with
      | none =>
          left
          simp [lowerChar, hascii, hdotted, hfound]
      | some lower =>
          right
          obtain ⟨run, hrun, himage⟩ := List.exists_of_findSome?_eq_some hfound
          apply changes_of_image? run (List.mem_append_right [_, _, _] hrun) himage
          simp [lowerChar, hascii, hdotted, hfound]

private theorem lowerChar_of_isForm {char : Char} (hform : IsForm char.toNat) :
    lowerChar char = [char] := by
  rcases lowerChar_cases char with hsame | hchanges
  · exact hsame
  · obtain ⟨run, hrun, lower, himage⟩ := hchanges.capital
    rw [hform.image?_eq_none hrun] at himage
    contradiction

private theorem lowerChar_ne_nil (char : Char) : lowerChar char ≠ [] := by
  rcases lowerChar_cases char with hsame | hchanges
  · simp [hsame]
  · exact hchanges.ne_nil

/-- What lowercasing makes is left alone by it. -/
theorem lowerChar_of_mem {char other : Char} (hother : other ∈ lowerChar char) :
    lowerChar other = [other] := by
  rcases lowerChar_cases char with hsame | hchanges
  · rw [hsame, List.mem_singleton] at hother
    rw [hother, hsame]
  · exact lowerChar_of_isForm (hchanges.forms other hother)

private theorem lowerChar_of_isBlank {char : Char} (hblank : isBlank char = true) :
    lowerChar char = [char] := by
  rcases lowerChar_cases char with hsame | hchanges
  · exact hsame
  · obtain ⟨run, hrun, lower, himage⟩ := hchanges.capital
    have hnone := Intervals.covers_eq_false
      (show capitalIntervals.apart blankIntervals = true by decide +kernel)
      (covers_of_image? hrun himage).1
    rw [isBlank, hnone] at hblank
    contradiction

private theorem isBlank_of_mem_lowerChar {char other : Char} (hchar : isBlank char = false)
    (hother : other ∈ lowerChar char) : isBlank other = false := by
  rcases lowerChar_cases char with hsame | hchanges
  · rw [hsame, List.mem_singleton] at hother
    rw [hother, hchar]
  · exact Intervals.covers_eq_false
      (show formIntervals.apart blankIntervals = true by decide +kernel)
      (hchanges.forms other hother).covers

/-! ## Characters in their places -/

private theorem lowerChar_of_mem_lowerAt {before after : List Char} {char other : Char}
    (hother : other ∈ lowerAt before char after) : lowerChar other = [other] := by
  unfold lowerAt at hother
  split at hother
  · rw [List.mem_singleton] at hother
    split at hother <;> rw [hother] <;> decide +kernel
  · exact lowerChar_of_mem hother

theorem lowerAt_eq_self {char : Char} (hchar : lowerChar char = [char]) (before after : List Char) :
    lowerAt before char after = [char] := by
  unfold lowerAt
  split
  · next hsigma =>
      -- The one character that depends on its place is not its own lowercase form.
      rw [hsigma] at hchar
      exact absurd hchar (by decide +kernel)
  · exact hchar

private theorem lowerAt_ne_nil (before after : List Char) (char : Char) :
    lowerAt before char after ≠ [] := by
  unfold lowerAt
  split
  · exact List.cons_ne_nil _ _
  · exact lowerChar_ne_nil char

private theorem isBlank_of_mem_lowerAt {before after : List Char} {char other : Char}
    (hchar : isBlank char = false) (hother : other ∈ lowerAt before char after) :
    isBlank other = false := by
  unfold lowerAt at hother
  split at hother
  · rw [List.mem_singleton] at hother
    split at hother <;> rw [hother] <;> decide +kernel
  · exact isBlank_of_mem_lowerChar hchar hother

/-! ## Texts -/

private theorem lowercaseFrom_eq_append (before lowered text : List Char) :
    lowercaseFrom before lowered text = lowered.reverse ++ lowercaseFrom before [] text := by
  induction text generalizing before lowered with
  | nil => simp [lowercaseFrom]
  | cons char after ih =>
      rw [lowercaseFrom, lowercaseFrom, ih, ih (char :: before) (_ ++ [])]
      simp

theorem lowercaseFrom_cons (before : List Char) (char : Char) (after : List Char) :
    lowercaseFrom before [] (char :: after) =
      lowerAt before char after ++ lowercaseFrom (char :: before) [] after := by
  rw [lowercaseFrom, lowercaseFrom_eq_append]
  simp

theorem mem_lowercaseFrom {before text : List Char} {other : Char}
    (hother : other ∈ lowercaseFrom before [] text) :
    ∃ front char after, char ∈ text ∧ other ∈ lowerAt front char after := by
  induction text generalizing before with
  | nil => simp [lowercaseFrom] at hother
  | cons char after ih =>
      rw [lowercaseFrom_cons, List.mem_append] at hother
      rcases hother with hhere | hlater
      · exact ⟨before, char, after, List.mem_cons_self, hhere⟩
      · obtain ⟨front, later, rest, hmem, hplace⟩ := ih hlater
        exact ⟨front, later, rest, List.mem_cons_of_mem char hmem, hplace⟩

private theorem lowercaseFrom_of_forall {before text : List Char}
    (htext : ∀ char ∈ text, lowerChar char = [char]) : lowercaseFrom before [] text = text := by
  induction text generalizing before with
  | nil => rfl
  | cons char after ih =>
      rw [List.forall_mem_cons] at htext
      rw [lowercaseFrom_cons, lowerAt_eq_self htext.1, ih htext.2, List.singleton_append]

theorem lowercase_lowercase (text : List Char) : lowercase (lowercase text) = lowercase text := by
  apply lowercaseFrom_of_forall
  intro char hchar
  obtain ⟨front, source, after, -, hplace⟩ := mem_lowercaseFrom hchar
  exact lowerChar_of_mem_lowerAt hplace

theorem lowercase_eq_nil_iff (text : List Char) : lowercase text = [] ↔ text = [] := by
  cases text with
  | nil => simp [lowercase, lowercaseFrom]
  | cons char after => simp [lowercase, lowercaseFrom_cons, lowerAt_ne_nil]

theorem isBlank_of_mem_lowercase {text : List Char} (htext : ∀ char ∈ text, isBlank char = false) :
    ∀ other ∈ lowercase text, isBlank other = false := by
  intro other hother
  obtain ⟨front, char, after, hchar, hplace⟩ := mem_lowercaseFrom hother
  exact isBlank_of_mem_lowerAt (htext char hchar) hplace

/-! ## Cutting a text at a blank -/

private theorem startsCased_cons (char : Char) (rest : List Char) :
    startsCased (char :: rest) =
      if isCaseIgnorable char then startsCased rest else isCased char := by
  unfold startsCased
  cases hchar : isCaseIgnorable char <;> simp [hchar]

/-- The scan for a cased neighbour does not look beyond a blank. -/
theorem startsCased_append_blank {blank : Char} (hblank : isBlank blank = true)
    (near far : List Char) : startsCased (near ++ blank :: far) = startsCased near := by
  induction near with
  | nil =>
      rw [List.nil_append, startsCased_cons, isCaseIgnorable_of_isBlank hblank,
        isCased_of_isBlank hblank]
      rfl
  | cons char near ih => rw [List.cons_append, startsCased_cons, startsCased_cons, ih]

private theorem lowercaseFrom_of_blank_before {blank : Char} (hblank : isBlank blank = true)
    (near far text : List Char) :
    lowercaseFrom (near ++ blank :: far) [] text = lowercaseFrom near [] text := by
  induction text generalizing near with
  | nil => rfl
  | cons char after ih =>
      have hplace : lowerAt (near ++ blank :: far) char after = lowerAt near char after := by
        rw [lowerAt, startsCased_append_blank hblank]
        rfl
      rw [lowercaseFrom_cons, lowercaseFrom_cons, hplace, ← List.cons_append, ih]

private theorem lowercaseFrom_append_blank {blank : Char} (hblank : isBlank blank = true)
    (before near far : List Char) :
    lowercaseFrom before [] (near ++ blank :: far) =
      lowercaseFrom before [] near ++ blank :: lowercase far := by
  induction near generalizing before with
  | nil =>
      rw [List.nil_append, lowercaseFrom_cons, lowerAt_eq_self (lowerChar_of_isBlank hblank)]
      exact congrArg (blank :: ·) (lowercaseFrom_of_blank_before hblank [] before far)
  | cons char near ih =>
      have hplace : lowerAt before char (near ++ blank :: far) = lowerAt before char near := by
        rw [lowerAt, startsCased_append_blank hblank]
        rfl
      rw [List.cons_append, lowercaseFrom_cons, lowercaseFrom_cons, hplace, ih, List.append_assoc]

/-- The two sides of a blank are lowercased apart, and the blank stays. -/
theorem lowercase_append_blank {blank : Char} (hblank : isBlank blank = true)
    (left right : List Char) :
    lowercase (left ++ blank :: right) = lowercase left ++ blank :: lowercase right :=
  lowercaseFrom_append_blank hblank [] left right

end Polarity.Text
