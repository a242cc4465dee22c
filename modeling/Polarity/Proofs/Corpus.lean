import Mathlib
import Polarity.Corpus
import Polarity.Proofs.FileSystem.Listing
import Polarity.Proofs.Session
import Polarity.Proofs.Text.Utf8

/-!
# Loading a directory

What is loaded from a directory is fixed by what its listing shows, whatever the order
of the listing: the files that are within reach, by name in ascending order.  Sorting
settles the order because no name is listed twice.
-/

namespace Polarity.Corpus

open Text.Utf8 (Bytes ofString)
open FileSystem Session

/-! ## The files of a listing -/

def stored? : Shown → Option (Option Bytes)
  | .directory => none
  | .locked => some none
  | .file content => some (some content)

private theorem stored?_eq_some {entry : Shown} {stored : Option Bytes} :
    stored? entry = some stored ↔ entry = stored.elim .locked .file := by
  cases entry <;> cases stored <;> simp [stored?]

def file? (directory : Bytes) (entry : Bytes × Shown) : Option (Bytes × Option Bytes) :=
  if (Path.ofChild directory entry.1).length ≤ Path.longest then (stored? entry.2).map (entry.1, ·)
  else none

private theorem file?_eq_some {directory : Bytes} {entry : Bytes × Shown}
    {file : Bytes × Option Bytes} :
    file? directory entry = some file ↔
      entry = (file.1, file.2.elim .locked .file) ∧
        (Path.ofChild directory file.1).length ≤ Path.longest := by
  obtain ⟨name, content⟩ := entry
  obtain ⟨other, stored⟩ := file
  unfold file?
  split <;> simp [stored?_eq_some] <;> grind

def filesIn (directory : Bytes) (entries : List (Bytes × Shown)) : List (Bytes × Option Bytes) :=
  entries.filterMap (file? directory)

private theorem mem_filesIn {directory name : Bytes} {stored : Option Bytes}
    {entries : List (Bytes × Shown)} :
    (name, stored) ∈ filesIn directory entries ↔
      (name, stored.elim .locked .file) ∈ entries ∧
        (Path.ofChild directory name).length ≤ Path.longest := by
  simp [filesIn, List.mem_filterMap, file?_eq_some]

private theorem pairwise_filesIn (directory : Bytes) {entries : List (Bytes × Shown)}
    (hnames : (entries.map Prod.fst).Nodup) :
    (filesIn directory entries).Pairwise fun left right => left.1 ≠ right.1 := by
  rw [List.Nodup, List.pairwise_map] at hnames
  refine List.Pairwise.filterMap (file? directory) ?_ hnames
  intro first second hne left hleft right hright
  rw [file?_eq_some] at hleft hright
  rwa [hleft.1, hright.1] at hne

def inOrder (left right : Bytes × Option Bytes) : Bool := !decide (right.1 < left.1)

private theorem sortedFiles_withinReach (directory : Bytes) (entries : List (Bytes × Entry)) :
    sortedFiles (withinReach directory entries) =
      (filesIn directory (entries.map fun (name, entry) => (name, shown entry))).mergeSort
        inOrder := by
  refine congrArg (fun files : List (Bytes × Option Bytes) => files.mergeSort inOrder) ?_
  rw [withinReach, filesIn, List.filterMap_filter, List.filterMap_map]
  apply List.filterMap_congr
  rintro ⟨name, ⟨content, _ | _⟩ | children⟩ -
  · simp [shown, file?, stored?]
  · simp [shown, file?, stored?]
  · simp [shown, file?, stored?]

private theorem pairwise_mergeSort_inOrder {files : List (Bytes × Option Bytes)}
    (hnames : files.Pairwise fun left right => left.1 ≠ right.1) :
    (files.mergeSort inOrder).Pairwise fun left right => left.1 < right.1 := by
  have htrans : ∀ first second third, inOrder first second = true → inOrder second third = true →
      inOrder first third = true := by
    simp only [inOrder, Bool.not_eq_true', decide_eq_false_iff_not, Std.not_lt]
    exact fun _ _ _ => Std.le_trans
  have htotal : ∀ first second, (inOrder first second || inOrder second first) = true := by
    simp only [inOrder, Bool.or_eq_true, Bool.not_eq_true', decide_eq_false_iff_not, Std.not_lt]
    exact fun _ _ => Std.le_total
  -- Sorted names may be equal as far as the sort knows; that they differ makes the order strict.
  have hdistinct : (files.mergeSort inOrder).Pairwise fun left right => left.1 ≠ right.1 :=
    hnames.perm (List.mergeSort_perm files inOrder).symm fun h => h.symm
  refine ((List.pairwise_mergeSort htrans htotal files).and hdistinct).imp fun hpair => ?_
  simp only [inOrder, Bool.not_eq_true', decide_eq_false_iff_not, Std.not_lt] at hpair
  exact Std.lt_of_le_of_ne hpair.1 hpair.2

private theorem mergeSort_eq_of_perm {files others : List (Bytes × Option Bytes)}
    (hperm : files.Perm others) (hnames : files.Pairwise fun left right => left.1 ≠ right.1) :
    files.mergeSort inOrder = others.mergeSort inOrder := by
  have hothers := hnames.perm hperm fun h => h.symm
  refine List.Perm.eq_of_pairwise ?_ (pairwise_mergeSort_inOrder hnames)
    (pairwise_mergeSort_inOrder hothers) ?_
  · exact fun left right _ _ hlt hgt => absurd (Std.lt_trans hlt hgt) Std.lt_irrefl
  · exact (List.mergeSort_perm files inOrder).trans
      (hperm.trans (List.mergeSort_perm others inOrder).symm)

/-! ## What the documents are -/

structure IsReading (document : Document) (name content : Bytes) : Prop where
  words : document.words = Text.tokenize (Text.Utf8.toStringLossy content)
  words_of_text : ∀ text, content = ofString text → document.words = Text.tokenize text
  source_of_text : ∀ text, name = ofString text → document.source = text
  source_of_no_text : (∀ text, name ≠ ofString text) → document.source = "unknown"

private theorem isReading_readDocument (name content : Bytes) :
    IsReading (readDocument name content) name content where
  words := rfl
  words_of_text := by
    rintro text rfl
    rw [readDocument, Document.ofText, Text.Utf8.toStringLossy_ofString]
  source_of_text := by
    rintro text rfl
    rw [readDocument, Document.ofText, sourceName, Text.Utf8.toString?_ofString, Option.getD_some]
  source_of_no_text := by
    intro hname
    rw [readDocument, Document.ofText, sourceName, Text.Utf8.toString?_eq_none hname,
      Option.getD_none]

def unreadable (directory name : Bytes) : FileProblem :=
  .readFile (Text.Utf8.toStringLossy (Path.ofChild directory name))

/-- What comes of reading files in their order: a document for each, or the first that is locked. -/
inductive Loads (directory : Bytes) :
    List (Bytes × Option Bytes) → Except Error (List Document) → Prop
  | documents {files : List (Bytes × Option Bytes)} {documents : List Document}
      (hfiles : List.Forall₂ (fun file document => ∃ content, file.2 = some content ∧
        IsReading document file.1 content) files documents) :
      Loads directory files (.ok documents)
  | unreadable {before after : List (Bytes × Option Bytes)} {name : Bytes}
      (hbefore : ∀ file ∈ before, file.2.isSome) :
      Loads directory (before ++ (name, none) :: after) (.error (.file (unreadable directory name)))

theorem takesNotes_mapM_loadFile (directory : Bytes) (files : List (Bytes × Option Bytes)) :
    ∃ outcome notes, Loads directory files outcome ∧
      TakesNotes (files.mapM (loadFile directory)) outcome notes := by
  induction files with
  | nil => exact ⟨.ok [], [], .documents .nil, .pure []⟩
  | cons file files ih =>
      obtain ⟨name, stored⟩ := file
      rw [List.mapM_cons]
      cases stored with
      | none =>
          refine ⟨_, _, ?_, (takesNotes_fail (unreadable directory name)).bind_error _⟩
          exact .unreadable (List.forall_mem_nil _)
      | some content =>
          obtain ⟨outcome, notes, hloads, hnotes⟩ := ih
          have hfile : TakesNotes (loadFile directory (name, some content))
              (.ok (readDocument name content)) _ :=
            (takesNotes_note .debug _).bind (.pure _)
          cases hloads with
          | documents hfiles =>
              refine ⟨_, _, ?_, hfile.bind (hnotes.bind (.pure _))⟩
              exact .documents (.cons ⟨content, rfl, isReading_readDocument name content⟩ hfiles)
          | unreadable hbefore =>
              refine ⟨_, _, ?_, hfile.bind (hnotes.bind_error _)⟩
              rw [← List.cons_append]
              exact .unreadable (List.forall_mem_cons.mpr ⟨rfl, hbefore⟩)

/-! ## Loading -/

def sorted (directory : Bytes) (entries : List (Bytes × Shown)) : List (Bytes × Option Bytes) :=
  (filesIn directory entries).mergeSort inOrder

/-- What is loaded depends on the files in their order, and on nothing else. -/
theorem run_loadDirectory_of_sorted (path : String) (files : List (Bytes × Option Bytes)) :
    ∃ outcome notes, Loads (ofString path) files outcome ∧
      ∀ (world : World) (entries : List (Bytes × Shown)),
        world.files.listing? (ofString path) = some entries →
        sorted (ofString path) entries = files →
        (loadDirectory path).run world =
          (outcome, { world with notes := world.notes ++ notes }) := by
  obtain ⟨outcome, taken, hloads, hnotes⟩ := takesNotes_mapM_loadFile (ofString path) files
  obtain ⟨notes, hsession⟩ := hnotes.exists_note .info fun documents =>
    s!"Loaded {documents.length} documents from '{path}'"
  refine ⟨outcome, notes.toArray, hloads, fun world entries hlist hsorted => ?_⟩
  obtain ⟨listed, hlisted, rfl⟩ := Option.map_eq_some_iff.mp hlist
  subst hsorted
  rw [loadDirectory, run_bind_ok (run_files world), hlisted]
  dsimp only
  rw [sortedFiles_withinReach]
  exact hsession world

private theorem run_loadDirectory_of_no_listing {path : String} {world : World}
    (hlist : world.files.listing? (ofString path) = none) :
    (loadDirectory path).run world = (.error (.file (.readDirectory path)), world) := by
  rw [loadDirectory, run_bind_ok (run_files world), Option.map_eq_none_iff.mp hlist]
  rfl

/-- Why the documents in a directory cannot be loaded. -/
def problem? (files : FileSystem) (path : String) : Option FileProblem :=
  match files.listing? (ofString path) with
  | none => some (.readDirectory path)
  | some entries => ((sorted (ofString path) entries).find? fun file => file.2.isNone).map
      fun file => unreadable (ofString path) file.1

theorem Loads.find?_cases {directory : Bytes} {files : List (Bytes × Option Bytes)}
    {outcome : Except Error (List Document)} (hloads : Loads directory files outcome) :
    (∃ documents, outcome = .ok documents ∧ (files.find? fun file => file.2.isNone) = none) ∨
      ∃ name, outcome = .error (.file (Corpus.unreadable directory name)) ∧
        (files.find? fun file => file.2.isNone) = some (name, none) := by
  cases hloads with
  | @documents _ documents hfiles =>
      refine .inl ⟨documents, rfl, ?_⟩
      induction hfiles with
      | nil => rfl
      | cons hfile _ ih =>
          obtain ⟨content, hcontent, -⟩ := hfile
          rwa [List.find?_cons_of_neg (by simp [hcontent])]
  | @unreadable before after name hbefore =>
      refine .inr ⟨name, rfl, List.find?_eq_some_iff_append.mpr ⟨rfl, before, after, rfl, ?_⟩⟩
      intro file hfile
      simpa using hbefore file hfile

theorem run_loadDirectory (path : String) (world : World) :
    ∃ notes,
      (∃ problem, problem? world.files path = some problem ∧
        (loadDirectory path).run world =
          (.error (.file problem), { world with notes := notes })) ∨
      (problem? world.files path = none ∧ ∃ documents,
        (loadDirectory path).run world = (.ok documents, { world with notes := notes })) := by
  unfold problem?
  cases hlisting : world.files.listing? (ofString path) with
  | none => exact ⟨world.notes, .inl ⟨_, rfl, run_loadDirectory_of_no_listing hlisting⟩⟩
  | some entries =>
      obtain ⟨outcome, notes, hloads, hrun⟩ :=
        run_loadDirectory_of_sorted path (sorted (ofString path) entries)
      have hworld := hrun world entries hlisting rfl
      refine ⟨world.notes ++ notes, ?_⟩
      rcases hloads.find?_cases with ⟨documents, rfl, hnone⟩ | ⟨name, rfl, hname⟩
      · exact .inr ⟨by simp only [hnone, Option.map_none], documents, hworld⟩
      · exact .inl ⟨_, by simp only [hname, Option.map_some], hworld⟩

/-- The files that a listing shows and whose paths are not too long, by name in strictly
ascending order. -/
structure AreFiles (directory : Bytes) (entries : List (Bytes × Shown))
    (files : List (Bytes × Option Bytes)) : Prop where
  ascending : files.Pairwise fun left right => left.1 < right.1
  mem_file : ∀ name content, (name, some content) ∈ files ↔
    (name, .file content) ∈ entries ∧ (Path.ofChild directory name).length ≤ Path.longest
  mem_locked : ∀ name, (name, none) ∈ files ↔
    (name, .locked) ∈ entries ∧ (Path.ofChild directory name).length ≤ Path.longest

theorem areFiles_sorted (directory : Bytes) {entries : List (Bytes × Shown)}
    (hnames : (entries.map Prod.fst).Nodup) :
    AreFiles directory entries (sorted directory entries) where
  ascending := pairwise_mergeSort_inOrder (pairwise_filesIn directory hnames)
  mem_file := by
    intro name content
    rw [sorted, List.mem_mergeSort, mem_filesIn, Option.elim_some]
  mem_locked := by
    intro name
    rw [sorted, List.mem_mergeSort, mem_filesIn, Option.elim_none]

theorem sorted_eq_of_perm (directory : Bytes) {entries others : List (Bytes × Shown)}
    (hperm : entries.Perm others) (hnames : (entries.map Prod.fst).Nodup) :
    sorted directory entries = sorted directory others :=
  mergeSort_eq_of_perm (hperm.filterMap _) (pairwise_filesIn directory hnames)

/--
Two worlds that list a directory in different orders load the same from it.  What they load
is one document for each file within reach, unless one of these files cannot be read.
-/
theorem loading_ignores_listing_order (path : String) (world : World) (others : FileSystem)
    (hfiles : world.files.Distinct)
    (hlistings : Option.Rel List.Perm (world.files.listing? (ofString path))
      (others.listing? (ofString path))) :
    ∃ outcome after, (loadDirectory path).run world = (outcome, after) ∧
      (loadDirectory path).run { world with files := others } =
        (outcome, { after with files := others }) ∧
      match world.files.listing? (ofString path) with
      | none => outcome = .error (.file (.readDirectory path))
      | some entries => ∃ files, AreFiles (ofString path) entries files ∧
          Loads (ofString path) files outcome := by
  generalize hentries : world.files.listing? (ofString path) = listing,
    hothers : others.listing? (ofString path) = reordered at hlistings ⊢
  cases hlistings with
  | none =>
      exact ⟨_, _, run_loadDirectory_of_no_listing hentries,
        run_loadDirectory_of_no_listing hothers, rfl⟩
  | @some entries reordered hperm =>
      have hnames := hfiles.listing? hentries
      obtain ⟨outcome, notes, hloads, hrun⟩ :=
        run_loadDirectory_of_sorted path (sorted (ofString path) entries)
      exact ⟨outcome, _, hrun world entries hentries rfl,
        hrun _ reordered hothers (sorted_eq_of_perm (ofString path) hperm hnames).symm, _,
        areFiles_sorted (ofString path) hnames, hloads⟩

def pool (entries : List (Bytes × Entry)) : FileSystem :=
  entries.foldl (fun files (name, entry) => files.put [ofString "pos", name] entry) .empty

def reviews : List (Bytes × Entry) :=
  [([0xFF], .file (pack [0x4E, 0x6F, 0x80])), (ofString "é", .file (pack (ofString "Très BON"))),
    (ofString "a", .directory [])]

private theorem distinct_pool {entries : List (Bytes × Entry)}
    (hentries : ∀ pair ∈ entries, pair.2.Distinct) : (pool entries).Distinct := by
  refine List.foldlRecOn entries _ distinct_empty fun files hfiles pair hpair => ?_
  exact hfiles.put _ (hentries pair hpair)

theorem reviews_load_in_any_order :
    ∃ outcome after, (loadDirectory "pos").run (.ofFiles (pool reviews)) = (outcome, after) ∧
      (loadDirectory "pos").run (.ofFiles (pool reviews.reverse)) =
        (outcome, { after with files := pool reviews.reverse }) ∧
      ∃ files,
        AreFiles (ofString "pos") [([0xFF], .file [0x4E, 0x6F, 0x80]),
          (ofString "é", .file (ofString "Très BON")), (ofString "a", .directory)] files ∧
        Loads (ofString "pos") files outcome := by
  have hlisting : (pool reviews).listing? (ofString "pos") =
      some [([0xFF], .file [0x4E, 0x6F, 0x80]), (ofString "é", .file (ofString "Très BON")),
        (ofString "a", .directory)] := by
    decide +kernel
  have hreversed : (pool reviews.reverse).listing? (ofString "pos") =
      some [(ofString "a", .directory), (ofString "é", .file (ofString "Très BON")),
        ([0xFF], .file [0x4E, 0x6F, 0x80])] := by
    decide +kernel
  have hdistinct : (pool reviews).Distinct := by
    apply distinct_pool
    simp only [reviews, List.forall_mem_cons, Entry.distinct_directory_nil, Entry.Distinct.file,
      List.not_mem_nil, false_implies, implies_true, and_self]
  have hlistings : Option.Rel List.Perm ((pool reviews).listing? (ofString "pos"))
      ((pool reviews.reverse).listing? (ofString "pos")) := by
    rw [hlisting, hreversed]
    exact .some (List.reverse_perm _).symm
  have hload := loading_ignores_listing_order "pos" (.ofFiles (pool reviews))
    (pool reviews.reverse) hdistinct hlistings
  rw [World.ofFiles, hlisting] at hload
  exact hload

/-- The same directory by a path with so many dots after its name. -/
def dotted (dots : Nat) : String :=
  String.ofList (['p', 'o', 's'] ++ (List.replicate dots ['/', '.']).flatten)

private theorem ofString_dotted (dots : Nat) :
    ofString (dotted dots) =
      [0x70, 0x6F, 0x73] ++ (List.replicate dots (Path.slash :: Path.here)).flatten := by
  have hdots : Text.Utf8.encode (List.replicate dots ['/', '.']).flatten =
      (List.replicate dots (Path.slash :: Path.here)).flatten := by
    induction dots with
    | zero => rfl
    | succ dots ih => exact congrArg (Path.slash :: Path.here ++ ·) ih
  rw [ofString, dotted, String.toList_ofList, ← hdots]
  rfl

def loneReview : List (Bytes × Entry) := [(ofString "ab", .file (pack (ofString "One")))]

/-- A file that the listing of its directory shows, but whose own path has 4096 bytes. -/
theorem file_out_of_reach :
    (pool loneReview).listing? (ofString (dotted 2045)) =
        some [(ofString "ab", .file (ofString "One"))] ∧
      ((loadDirectory (dotted 2045)).run (.ofFiles (pool loneReview))).1 = .ok [] := by
  have hlisting : (pool loneReview).listing? (ofString (dotted 2045)) =
      some [(ofString "ab", .file (ofString "One"))] := by
    rw [ofString_dotted]
    decide +kernel
  have hfiles : filesIn (ofString (dotted 2045)) [(ofString "ab", .file (ofString "One"))] = [] := by
    rw [ofString_dotted]
    decide +kernel
  have hsorted : sorted (ofString (dotted 2045)) [(ofString "ab", .file (ofString "One"))] = [] := by
    rw [sorted, hfiles, List.mergeSort_nil]
  obtain ⟨outcome, notes, hloads, hrun⟩ := run_loadDirectory_of_sorted (dotted 2045) []
  refine ⟨hlisting, ?_⟩
  rw [hrun (.ofFiles (pool loneReview)) _ hlisting hsorted]
  generalize hnone : [] = files at hloads
  cases hloads with
  | documents hfiles =>
      subst hnone
      cases hfiles
      rfl
  | unreadable hbefore => simp at hnone

end Polarity.Corpus
