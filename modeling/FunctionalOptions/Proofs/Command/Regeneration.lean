import FunctionalOptions.Proofs.Command.Library
import FunctionalOptions.Proofs.Files.Writing
import FunctionalOptions.Proofs.Text.Utf8

/-!
# Running Twice

A run reads one file and writes another. What is written does not depend on
what was there before, so a second run with the same arguments should find the
same descriptor and put the same text in the same place. That the place is still
a good one is shown with the writing of files. What is left is the descriptor,
and there is one case in which it is not the same: nothing keeps the output from
being written over the descriptor itself.

The two are then compared by where they lead and not by how they are written,
since there are many paths to one file. In JSON what was written is never read
again, because it begins with a comment. In the other format it could be, if
the path of an import looked like an element, so this is left open.

## Main definitions

* `FileTree.Same`: Two trees hold the same.
* `Arguments.target`: The path of the options file.

## Theorems

* `ofFile_of_written`: What a descriptor is read from after a file has been written.
* `run_eq_ok_iff`: The steps of a run that writes a file.
* `run_same_iff`: A second run changes nothing if it generates the same text.
* `run_again`: A second run changes nothing, unless the first one has written
  over the descriptor.
* `run_over_json`: If it has, and the descriptor is in JSON, a second run fails.
* `run_over_descriptor`: A run that has done so.
-/

namespace FunctionalOptions

/-- Two trees hold the same: the same at every location, with the same current
    directory. -/
structure FileTree.Same (tree tree' : FileTree) : Prop where
  current : tree'.current = tree.current
  entry : ∀ location, tree'.get? location = tree.get? location

namespace Command

open FileTree Filesystem

variable {tree tree' : FileTree}

/-- The path of the options file, in a tree with a current directory. -/
def Arguments.target (arguments : Arguments) (tree : FileTree) : String :=
  destination arguments.type (Path.join tree.currentPath arguments.source) arguments.output

/-! ## The descriptor -/

/-- A descriptor is read from the text of its file. -/
theorem ofFile_of_contents {path text : String} {bytes : ByteArray}
    (hbytes : tree.contents path = .ok bytes) (htext : String.fromUTF8? bytes = some text) :
    ((Descriptor.Document.ofFile path : OnTree _) tree).1 =
      (Descriptor.Format.ofPath path).read text := by
  have hread : (Filesystem.read path : OnTree _) tree = (tree.contents path, tree) := rfl
  rw [Descriptor.Document.ofFile, OnTree.bind_run, readText, OnTree.bind_run, hread, hbytes]
  dsimp only
  rw [htext]
  rfl

theorem exists_contents_of_ofFile {path : String} {document : Descriptor.Document}
    (h : ((Descriptor.Document.ofFile path : OnTree _) tree).1 = .ok document) :
    ∃ bytes text, tree.contents path = .ok bytes ∧ String.fromUTF8? bytes = some text := by
  have hread : (Filesystem.read path : OnTree _) tree = (tree.contents path, tree) := rfl
  rw [Descriptor.Document.ofFile, OnTree.bind_run, readText, OnTree.bind_run, hread] at h
  dsimp only at h
  cases hbytes : tree.contents path with
  | error error =>
      rw [hbytes] at h
      cases h
  | ok bytes =>
      cases htext : String.fromUTF8? bytes with
      | none =>
          rw [hbytes] at h
          dsimp only at h
          rw [htext] at h
          cases h
      | some text => exact ⟨bytes, text, rfl, htext⟩

/-- After a file has been written, a descriptor is read from that if its path leads
    there, and otherwise from what it was read from before. -/
theorem ofFile_of_written {path target text : String} {document : Descriptor.Document}
    (hopened : ((Descriptor.Document.ofFile path : OnTree _) tree).1 = .ok document)
    (hwritten : (writeText target text : OnTree _) tree = (.ok (), tree')) :
    ∃ place output, tree.Leads path place ∧ tree'.Leads path place ∧ tree'.Leads target output ∧
      ((Descriptor.Document.ofFile path : OnTree _) tree').1 =
        if place = output then (Descriptor.Format.ofPath path).read text else .ok document := by
  rcases exists_contents_of_ofFile hopened with ⟨bytes, source, hbytes, hsource⟩
  rcases contents_eq_ok_iff.mp hbytes with ⟨place, hplace, hfile⟩
  rcases writeText_of_ok hwritten with ⟨hkeeps, output, houtput, hthere, -, hothers⟩
  have hplace' := hkeeps.leads hplace
  refine ⟨place, output, hplace, hplace', houtput, ?_⟩
  -- Either the descriptor is what has been written, or its file is untouched.
  by_cases hwhere : place = output
  · rw [if_pos hwhere]
    exact ofFile_of_contents (contents_eq_ok_iff.mpr ⟨output, hwhere ▸ hplace', hthere⟩)
      (fromUTF8?_toUTF8 text)
  · have hkept : tree'.get? place = some (.file bytes) := by
      -- There was a file before, so this is no place where a directory has been added.
      rcases hothers place hwhere with hkept | ⟨hnone, -⟩
      · rw [hkept, hfile]
      · cases hnone.symm.trans hfile
    rw [if_neg hwhere, ← hopened, ofFile_of_contents hbytes hsource]
    exact ofFile_of_contents (contents_eq_ok_iff.mpr ⟨place, hplace', hkept⟩) hsource

/-! ## Runs -/

theorem Failure.status_ne_zero (failure : Failure) : failure.status ≠ 0 := by
  cases failure <;> (rw [status]; decide)

/-- The status of a run is zero when the run succeeds, and only then. -/
theorem status_eq_zero_iff (answer : Except Failure String) :
    (Outcome.ofResult answer).status = 0 ↔ ∃ printed, answer = .ok printed := by
  cases answer with
  | ok printed => exact ⟨fun _ => ⟨printed, rfl⟩, fun _ => rfl⟩
  | error failure =>
      constructor
      · exact fun h => absurd h failure.status_ne_zero
      · rintro ⟨_, ⟨⟩⟩

/-- The steps of a run that writes a file. -/
theorem run_eq_ok_iff {arguments : Arguments} (hwrites : arguments.stdout = false) :
    (∃ printed, (run arguments : OnTree _) tree = (.ok printed, tree')) ↔
      ∃ document text,
        ((Descriptor.Document.ofFile arguments.descriptor : OnTree _) tree).1 = .ok document ∧
          arguments.generate document = .ok text ∧
          (writeText (arguments.target tree) text : OnTree _) tree = (.ok (), tree') := by
  have hcurrent : (currentDirectory : OnTree _) tree = (.ok tree.currentPath, tree) := rfl
  rw [run, OnTree.bind_run, hcurrent]
  dsimp only
  rw [OnTree.bind_run, looks_ofFile arguments.descriptor tree]
  -- The steps are followed one after the other; where one fails, the run does.
  cases ((Descriptor.Document.ofFile arguments.descriptor : OnTree _) tree).1 with
  | error error =>
      constructor
      · rintro ⟨_, ⟨⟩⟩
      · rintro ⟨_, _, ⟨⟩, _⟩
  | ok document =>
      dsimp only
      cases hgenerate : arguments.generate document with
      | error failure =>
          constructor
          · rintro ⟨_, ⟨⟩⟩
          rintro ⟨_, _, h, htext, _⟩
          rw [← Except.ok.inj h, hgenerate] at htext
          cases htext
      | ok text =>
          dsimp only
          rw [hwrites, if_neg Bool.false_ne_true, OnTree.bind_run, writeOutput, OnTree.bind_run,
            ← Arguments.target]
          cases hwritten : (writeText (arguments.target tree) text : OnTree _) tree with
          | mk answer left =>
            constructor
            · rintro ⟨printed, h⟩
              refine ⟨document, text, rfl, hgenerate, ?_⟩
              cases answer with
              | error error => cases h
              | ok _ =>
                  rw [hwritten]
                  exact congrArg _ (Prod.mk.inj h).2
            · rintro ⟨_, other, h, hother, hwritten'⟩
              rw [← Except.ok.inj h, hgenerate] at hother
              rw [← Except.ok.inj hother, hwritten] at hwritten'
              cases hwritten'
              exact ⟨_, rfl⟩

/-- A run fails if its descriptor is not read. -/
theorem run_of_unread {arguments : Arguments} {error : Descriptor.ReadError}
    (h : ((Descriptor.Document.ofFile arguments.descriptor : OnTree _) tree).1 = .error error) :
    ((run arguments : OnTree _) tree).1 = .error (.descriptor arguments.descriptor error) := by
  have hcurrent : (currentDirectory : OnTree _) tree = (.ok tree.currentPath, tree) := rfl
  rw [run, OnTree.bind_run, hcurrent]
  dsimp only
  rw [OnTree.bind_run, looks_ofFile arguments.descriptor tree, h]
  rfl

/-! ## A second run -/

/-- Behind a run that has written a text, a second run succeeds and changes nothing if
    it generates the same text, and only then. -/
theorem run_same_iff {arguments : Arguments} {text : String} (hwrites : arguments.stdout = false)
    (hwritten : (writeText (arguments.target tree) text : OnTree _) tree = (.ok (), tree')) :
    (Outcome.ofResult ((run arguments : OnTree _) tree').1).status = 0 ∧
        Same tree' ((run arguments : OnTree _) tree').2 ↔
      ∃ document,
        ((Descriptor.Document.ofFile arguments.descriptor : OnTree _) tree').1 = .ok document ∧
          arguments.generate document = .ok text := by
  rcases writeText_of_ok hwritten with ⟨hkeeps, output, houtput, hthere, -⟩
  -- The target of the second run is that of the first, for the current directory has not changed.
  have htarget : arguments.target tree' = arguments.target tree := by
    rw [Arguments.target, currentPath, hkeeps.current]
    rfl
  constructor
  · rintro ⟨hstatus, hsame⟩
    rcases (status_eq_zero_iff _).mp hstatus with ⟨printed, hprinted⟩
    rcases (run_eq_ok_iff hwrites).mp ⟨printed, Prod.ext hprinted rfl⟩ with
      ⟨document, other, hopened, hother, hagain⟩
    -- What the second run writes is what is there already.
    rw [htarget] at hagain
    rcases writeText_of_ok hagain with ⟨hkeeps', output', houtput', hthere', -⟩
    obtain rfl := houtput'.unique (hkeeps'.leads houtput)
    rw [hsame.entry, hthere, Option.some.injEq, Entry.file.injEq] at hthere'
    have hdecoded := congrArg String.fromUTF8? hthere'
    rw [fromUTF8?_toUTF8, fromUTF8?_toUTF8] at hdecoded
    exact ⟨document, hopened, Option.some.inj hdecoded ▸ hother⟩
  · rintro ⟨document, hopened, htext⟩
    -- The other way round, the file can be written again, and what is written is what it holds.
    rcases writeText_again hwritten text with ⟨output', again, houtput', hagain, hcurrent, hentry⟩
    obtain rfl := houtput.unique houtput'
    rw [← htarget] at hagain
    rcases (run_eq_ok_iff hwrites).mpr ⟨document, text, hopened, htext, hagain⟩ with
      ⟨printed, hrun⟩
    rw [hrun]
    refine ⟨rfl, hcurrent, fun location => ?_⟩
    rw [hentry]
    split
    · next hlocation => rw [hlocation, hthere]
    · rfl

/-- A second run with the same arguments succeeds and changes nothing, unless the
    first one has written over the descriptor. If it has, the second run does so
    only when what was written is itself a descriptor, of the same file. -/
theorem run_again (arguments : Arguments) (tree tree' : FileTree)
    (hwrites : arguments.stdout = false)
    (hstatus : (Outcome.ofResult ((run arguments : OnTree _) tree).1).status = 0)
    (hleft : ((run arguments : OnTree _) tree).2 = tree') :
    ∃ text, tree'.contents (arguments.target tree) = .ok text.toUTF8 ∧
      ((Outcome.ofResult ((run arguments : OnTree _) tree').1).status = 0 ∧
          Same tree' ((run arguments : OnTree _) tree').2 ↔
        ∀ location, tree'.Leads arguments.descriptor location →
          tree'.Leads (arguments.target tree) location →
            ∃ document, (Descriptor.Format.ofPath arguments.descriptor).read text = .ok document ∧
              arguments.generate document = .ok text) := by
  rcases (status_eq_zero_iff _).mp hstatus with ⟨printed, hprinted⟩
  rcases (run_eq_ok_iff hwrites).mp ⟨printed, Prod.ext hprinted hleft⟩ with
    ⟨document, text, hopened, htext, hwritten⟩
  rcases writeText_of_ok hwritten with ⟨-, target, htarget, hthere, -⟩
  rcases ofFile_of_written hopened hwritten with ⟨place, output, -, hplace, houtput, hafter⟩
  refine ⟨text, contents_eq_ok_iff.mpr ⟨target, htarget, hthere⟩, ?_⟩
  rw [run_same_iff hwrites hwritten, hafter]
  -- Whether the first run has written over the descriptor decides what the second one reads.
  by_cases hwhere : place = output
  · rw [if_pos hwhere]
    constructor
    · exact fun h _ _ _ => h
    · exact fun h => h place hplace (hwhere ▸ houtput)
  · rw [if_neg hwhere]
    constructor
    · intro _ location hdescriptor hleads
      exact absurd ((hplace.unique hdescriptor).trans (hleads.unique houtput)) hwhere
    · exact fun _ => ⟨document, rfl, htext⟩

/-- Arguments that name a descriptor, a type and an output. -/
def outputArguments (descriptor output : String) : Arguments :=
  ⟨descriptor, "User", ".", some output, false, {}⟩

theorem run_again_desk :
    (Outcome.ofResult ((run (outputArguments "users.json" "gen/user.go") : OnTree _)
        ((run (outputArguments "users.json" "gen/user.go") : OnTree _) desk).2).1).status = 0 ∧
      Same ((run (outputArguments "users.json" "gen/user.go") : OnTree _) desk).2
        ((run (outputArguments "users.json" "gen/user.go") : OnTree _)
          ((run (outputArguments "users.json" "gen/user.go") : OnTree _) desk).2).2 := by
  have hrun : (Outcome.ofResult ((run (outputArguments "users.json" "gen/user.go") : OnTree _)
        desk).1).status = 0 ∧
      (((run (outputArguments "users.json" "gen/user.go") : OnTree _) desk).2.contents
          "users.json").toOption ≠
        (((run (outputArguments "users.json" "gen/user.go") : OnTree _) desk).2.contents
          ((outputArguments "users.json" "gen/user.go").target desk)).toOption := by
    decide +kernel
  rcases run_again (outputArguments "users.json" "gen/user.go") desk _ rfl hrun.1 rfl with
    ⟨text, -, hagain⟩
  -- The two files have different contents, so they are not in one place.
  refine hagain.mpr fun location hdescriptor hleads => absurd ?_ hrun.2
  rw [contents_of_leads hleads]
  exact congrArg _ (contents_of_leads hdescriptor)

/-! ## A descriptor that is overwritten -/

/-- What begins with a comment is no descriptor in JSON, which has no comments. -/
theorem ofJson_of_head? {text : String} (h : text.toList.head? = some '/') :
    ∃ failure, Descriptor.Document.ofJson text = .error failure := by
  rcases List.head?_eq_some_iff.mp h with ⟨rest, hrest⟩
  have htokens : Json.tokens ('/' :: rest) = [.brokenWord .malformed] := by
    rw [Json.tokens]
    · rw [if_neg (by decide), if_neg (by decide)]
    all_goals decide
  rw [Descriptor.Document.ofJson, Descriptor.readWhole, Json.ofText, hrest, htokens]
  exact ⟨_, rfl⟩

/-- A file begins as its header does. -/
theorem head?_of_generate {arguments : Arguments} {document : Descriptor.Document} {text : String}
    {c : Char} (hheader : arguments.settings.header.toList.head? = some c)
    (h : arguments.generate document = .ok text) : text.toList.head? = some c := by
  rw [Arguments.generate_eq, Except.mapError_eq_ok_iff, Descriptor.Document.generate_eq_ok_iff] at h
  rcases h with ⟨package, record, functions, -, -, rfl⟩
  have hne : arguments.settings.header.toList ≠ [] := by
    intro hnil
    rw [hnil] at hheader
    cases hheader
  have hempty : (Model.of arguments.settings package record).settings.header ≠ "" := fun h =>
    hne (congrArg String.toList h)
  simp only [Model.sourceText, Model.headerText, if_neg hempty, String.toList_append,
    List.append_assoc]
  exact (List.head?_append_of_ne_nil _ hne).trans hheader

/-- A run over a descriptor in JSON is the last one: what it has written is none. -/
theorem run_over_json {arguments : Arguments} {location : Location}
    (hheader : arguments.settings.header.toList.head? = some '/')
    (hformat : Descriptor.Format.ofPath arguments.descriptor = .json)
    (hwrites : arguments.stdout = false)
    (hstatus : (Outcome.ofResult ((run arguments : OnTree _) tree).1).status = 0)
    (hdescriptor : tree.Leads arguments.descriptor location)
    (htarget : tree.Leads (arguments.target tree) location) :
    (Outcome.ofResult ((run arguments : OnTree _)
      ((run arguments : OnTree _) tree).2).1).status = 3 := by
  rcases (status_eq_zero_iff _).mp hstatus with ⟨printed, hprinted⟩
  rcases (run_eq_ok_iff hwrites).mp ⟨printed, Prod.ext hprinted rfl⟩ with
    ⟨document, text, hopened, htext, hwritten⟩
  rcases writeText_of_ok hwritten with ⟨hkeeps, -⟩
  -- Both paths lead to one place, so the descriptor is what has been written.
  rcases ofFile_of_written hopened hwritten with ⟨place, output, hplace, -, houtput, hafter⟩
  obtain rfl := hplace.unique hdescriptor
  rcases ofJson_of_head? (head?_of_generate hheader htext) with ⟨failure, hfailure⟩
  rw [if_pos ((hkeeps.leads htarget).unique houtput), hformat, Descriptor.Format.read,
    hfailure] at hafter
  rw [run_of_unread hafter]
  rfl

/-- The descriptor on the desk is overwritten by the file it describes, and cannot be
    read again. -/
theorem run_over_descriptor :
    (Outcome.ofResult ((run (outputArguments "users.json" "users.json") : OnTree _)
        desk).1).status = 0 ∧
      (Outcome.ofResult ((run (outputArguments "users.json" "users.json") : OnTree _)
        ((run (outputArguments "users.json" "users.json") : OnTree _) desk).2).1).status = 3 := by
  have hstatus : (Outcome.ofResult ((run (outputArguments "users.json" "users.json") : OnTree _)
      desk).1).status = 0 := by
    decide +kernel
  have hleads : desk.Leads "users.json" ["users.json"] := rfl
  have htarget : desk.Leads ((outputArguments "users.json" "users.json").target desk)
      ["users.json"] := rfl
  exact ⟨hstatus, run_over_json (by decide) (by decide) rfl hstatus hleads htarget⟩

end Command

end FunctionalOptions
