import DocumentLayout.CommandLine.Run
import DocumentLayout.Proofs.CommandLine.Arguments
import DocumentLayout.Proofs.FrontMatter.Splitting

/-!
# Scanning and processing

A scan goes through its documents one after another and finds out about each of them on its own.
Processing the same document finds the same faults in it, and leaves it as it is exactly when the
scan says that it exports a default.
-/

namespace DocumentLayout.CommandLine

variable {files : Files} {config : Config} {common : Common} {file : Text}

/-! ## One document -/

/-- What there is to find out about a document: why it cannot be scanned, or else whether it exports
a default. -/
inductive Verdict (files : Files) (config : Config) (file : Text) : Except Failure Bool → Prop where
  | unreadable (hfile : (files file).bind Text.ofBytes? = none) :
      Verdict files config file (.error (.unreadable file))
  | malformed {text : Text} {error : Error} (hfile : (files file).bind Text.ofBytes? = some text)
      (hextract : FrontMatter.extract config.delimiter text = .error error) :
      Verdict files config file (.error (.fault error))
  | unparsed {text : Text} {front : FrontMatter} {error : Error}
      (hfile : (files file).bind Text.ofBytes? = some text)
      (hextract : FrontMatter.extract config.delimiter text = .ok front)
      (hexports : hasDefaultExport [] front.body = .error error) :
      Verdict files config file (.error (.fault error))
  | found {text : Text} {front : FrontMatter} {exportsDefault : Bool}
      (hfile : (files file).bind Text.ofBytes? = some text)
      (hextract : FrontMatter.extract config.delimiter text = .ok front)
      (hexports : hasDefaultExport [] front.body = .ok exportsDefault) :
      Verdict files config file (.ok exportsDefault)

theorem document_eq_ok {text : Text} (h : (files file).bind Text.ofBytes? = some text) :
    document files file = .ok text := by
  unfold document
  rw [h]

theorem verdict_exportsDefault (files : Files) (config : Config) (file : Text) :
    Verdict files config file (exportsDefault files config file) := by
  unfold exportsDefault
  cases hfile : (files file).bind Text.ofBytes? with
  | none =>
    simp only [document, hfile, bind, Except.bind]
    exact .unreadable hfile
  | some text =>
    simp only [document_eq_ok hfile, bind, Except.bind]
    cases hextract : FrontMatter.extract config.delimiter text with
    | error error => exact .malformed hfile hextract
    | ok front =>
      simp only [Except.mapError]
      cases hexports : hasDefaultExport [] front.body with
      | error error => exact .unparsed hfile hextract hexports
      | ok found => exact .found hfile hextract hexports

theorem eq_of_verdict {result : Except Failure Bool} (h : Verdict files config file result) :
    exportsDefault files config file = result := by
  unfold exportsDefault
  cases h with
  | unreadable hfile => simp [document, hfile, bind, Except.bind]
  | malformed hfile hextract =>
    simp [document_eq_ok hfile, hextract, bind, Except.bind, Except.mapError]
  | unparsed hfile hextract hexports =>
    simp [document_eq_ok hfile, hextract, hexports, bind, Except.bind, Except.mapError]
  | found hfile hextract hexports =>
    simp [document_eq_ok hfile, hextract, hexports, bind, Except.bind, Except.mapError]

/-! ## Processing -/

-- The layout that is asked for is the only one, and all groups fall back to it.
theorem resolve?_ofList_default (layout group : Text) :
    (Layouts.ofList [(Layouts.defaultGroup, layout)]).resolve? group = some layout := by
  unfold Layouts.resolve? Layouts.find?
  by_cases h : group = Layouts.defaultGroup
  · simp [h, Layouts.ofList, Layouts.insert, Layouts.erase, Layouts.empty]
  · simp [h, Layouts.ofList, Layouts.insert, Layouts.erase, Layouts.empty]

/-- What cannot be scanned cannot be processed, for the same reason, whatever it is processed to. -/
theorem process_of_failure {failure : Failure} (hconfig : configAt files common = .ok config)
    (h : Verdict files config file (.error failure)) (group layout : Option Text)
    (html json : Bool) :
    process files common file group layout html json = .error failure := by
  have hdelimiter : (withLayout config layout).delimiter = config.delimiter := by
    cases layout <;> rfl
  unfold process
  rw [hconfig]
  cases h with
  | unreadable hfile => simp [document, hfile, bind, Except.bind]
  | malformed hfile hextract =>
    simp [document_eq_ok hfile, Preprocessor.process, Preprocessor.ofConfig, hdelimiter, hextract,
      bind, Except.bind, Except.mapError]
  | unparsed hfile hextract hexports =>
    simp [document_eq_ok hfile, Preprocessor.process, Preprocessor.ofConfig, Preprocessor.new,
      hdelimiter, hextract, hexports, bind, Except.bind, Except.mapError]

theorem process_of_found {group : Option Text} {text layout : Text} {front : FrontMatter}
    {found : Bool} (hconfig : configAt files common = .ok config)
    (hfile : (files file).bind Text.ofBytes? = some text)
    (hextract : FrontMatter.extract config.delimiter text = .ok front)
    (hexports : hasDefaultExport [] front.body = .ok found)
    (hblank : Text.isBlank layout = false) :
    process files common file group (some layout) false false =
      .ok (if found then text else injectedFront text front.matter layout ++ front.body) := by
  let preprocessor := Preprocessor.ofConfig (withLayout config (some layout)) Compiler.passthrough
  have hlayout : preprocessor.layoutOf (group.getD Layouts.defaultGroup) = some layout :=
    resolve?_ofList_default layout _
  have hinput : (preprocessor.outcome group text front found).input =
      if found then text else injectedFront text front.matter layout ++ front.body := by
    show (injectLayout? text front.matter found
      (preprocessor.layoutOf (group.getD Layouts.defaultGroup))).getD text = _
    rw [hlayout]
    cases found with
    | true => rw [injectLayout?_eq_none.2 (.inl rfl)]; rfl
    | false => rw [injectLayout?_of_extract hextract hblank]; rfl
  have hprocess := @Preprocessor.process_of_scanned preprocessor group text front found hextract
    hexports
  unfold process
  rw [hconfig, document_eq_ok hfile]
  show ((preprocessor.process group text).mapError Failure.fault >>= fun compiled =>
    pure compiled.compiled) = _
  rw [hprocess, ← hinput]
  rfl

/-! ## Scanning -/

/-- A scan of documents about each of which `verdict` is what there is to find out: a line for each
one that can be scanned, in their order, and the code of what went wrong with each of the others. -/
structure Scans (verdict : Text → Except Failure Bool) (inColor : Bool) (names : List Text)
    (outcome : Outcome) : Prop where
  output : outcome.output = names.flatMap fun file => match verdict file with
    | .ok found => scanLine inColor file found
    | .error _ => []
  status : outcome.status = if names.all fun file => (verdict file).isOk then 0 else 1
  codes : outcome.failures.filterMap Failure.code? = names.filterMap fun file =>
    match verdict file with
    | .ok _ => none
    | .error failure => failure.code?

theorem scanFile_of_ok {found : Bool} (h : exportsDefault files config file = .ok found)
    (inColor : Bool) :
    scanFile files config inColor file = ⟨0, scanLine inColor file found, []⟩ := by
  rw [scanFile, h]
  rfl

theorem scanFile_of_error {failure : Failure}
    (h : exportsDefault files config file = .error failure) (inColor : Bool) :
    scanFile files config inColor file = ⟨1, [], [failure]⟩ := by
  rw [scanFile, h]

-- Each document adds its own line or its own failure to what comes of those behind it.
theorem scans_all (files : Files) (config : Config) (inColor : Bool) (names : List Text) :
    Scans (exportsDefault files config) inColor names
      (.all (names.map (scanFile files config inColor))) := by
  induction names with
  | nil => exact ⟨rfl, rfl, rfl⟩
  | cons file names ih =>
    obtain ⟨houtput, hstatus, hcodes⟩ := ih
    simp only [Outcome.all] at houtput hstatus hcodes
    cases hverdict : exportsDefault files config file with
    | ok found =>
      have hfile := scanFile_of_ok hverdict inColor
      constructor
      · simp [Outcome.all, hfile, hverdict, houtput]
      · simpa [Outcome.all, hfile, hverdict, Except.isOk, Except.toBool] using hstatus
      · simpa [Outcome.all, hfile, hverdict] using hcodes
    | error failure =>
      have hfile := scanFile_of_error hverdict inColor
      constructor
      · simp [Outcome.all, hfile, hverdict, houtput]
      · simp [Outcome.all, hfile, hverdict, Except.isOk, Except.toBool]
      · rw [List.filterMap_cons, ← hcodes]
        cases hcode : failure.code? <;> simp [Outcome.all, hfile, hverdict, hcode]

theorem scan_of_config (hconfig : configAt files common = .ok config) (inColor : Bool)
    (names : List Text) :
    scan files common inColor names = .all (names.map (scanFile files config inColor)) := by
  rw [scan, hconfig]

theorem scan_alone (hconfig : configAt files common = .ok config) (inColor : Bool) (file : Text) :
    scan files common inColor [file] = scanFile files config inColor file := by
  rw [scan_of_config hconfig]
  cases hverdict : exportsDefault files config file with
  | ok found => simp [Outcome.all, scanFile_of_ok hverdict]
  | error failure => simp [Outcome.all, scanFile_of_error hverdict]

/-! ## Both commands -/

/-- The outcome of processing a document with a layout, next to that of scanning it alone: they fail
together and for the same reason, and otherwise the document is printed as it is if it exports a
default, and with the layout if not. -/
structure Agrees (files : Files) (config : Config) (file layout : Text)
    (verdict : Except Failure Bool) (scanned processed : Outcome) : Prop where
  fails : processed.status = 2 ∧ processed.output = [] ↔ scanned.status ≠ 0
  failures : processed.failures = scanned.failures
  prints : ∀ found, verdict = .ok found → ∃ text front,
    (files file).bind Text.ofBytes? = some text ∧
    FrontMatter.extract config.delimiter text = .ok front ∧
    processed.status = 0 ∧ (processed.output = text ↔ found = true) ∧
    (found = false → processed.output = injectedFront text front.matter layout ++ front.body)

theorem agrees_of_config {layout : Text} (hconfig : configAt files common = .ok config)
    (hblank : Text.isBlank layout = false) (inColor : Bool) (file : Text) (group : Option Text) :
    Agrees files config file layout (exportsDefault files config file)
      (scan files common inColor [file])
      (.ofResult (process files common file group (some layout) false false)) := by
  have hverdict := verdict_exportsDefault files config file
  rw [scan_alone hconfig]
  cases hresult : exportsDefault files config file with
  | error failure =>
    rw [hresult] at hverdict
    rw [scanFile_of_error hresult, process_of_failure hconfig hverdict]
    exact { fails := by simp [Outcome.ofResult, Outcome.failure]
            failures := rfl
            prints := by simp }
  | ok found =>
    rw [hresult] at hverdict
    cases hverdict with
    | @found text front _ hfile hextract hexports =>
      rw [scanFile_of_ok hresult, process_of_found hconfig hfile hextract hexports hblank]
      -- What is injected into is longer than it was before.
      have hne : injectedFront text front.matter layout ++ front.body ≠ text :=
        fun heq => absurd (congrArg List.length heq) (length_lt_injected hextract).ne'
      refine { fails := ?_, failures := rfl, prints := fun found' hfound => ?_ }
      · simp [Outcome.ofResult, Outcome.success]
      · obtain rfl := Except.ok.inj hfound
        refine ⟨text, front, hfile, hextract, rfl, ?_, ?_⟩
        · cases found <;> simp [Outcome.ofResult, Outcome.success, hne]
        · rintro rfl
          rfl

/-- Scanning and processing documents, as the command line asks for it and as it comes out. A scan
is made up by the scans of its documents alone, and each of those agrees with processing the
document. -/
theorem scan_agrees_with_process (files : Files) (environment : List Text) :
    (∀ options, Request.ofArguments options = .idle → ['-', '-'] ∉ options →
      ∃ common, Sets options common) ∧
    ∀ (common : Common) (names : List Text),
      let run := fun command => (Request.run common command).outcome files environment
      let inColor := !common.noColor && !environment.contains noColorVariable
      (∀ failure, configAt files common = .error failure →
        run (.scan names) = ⟨2, [], [failure]⟩) ∧
      ∀ config, configAt files common = .ok config →
        ∃ verdict : Text → Except Failure Bool,
          (∀ file, Verdict files config file (verdict file)) ∧
          Scans verdict inColor names (run (.scan names)) ∧
          ((run (.scan names)).output = names.flatMap fun file => (run (.scan [file])).output) ∧
          ((run (.scan names)).failures =
            names.flatMap fun file => (run (.scan [file])).failures) ∧
          ((run (.scan names)).status = 0 ↔ ∀ file ∈ names, (run (.scan [file])).status = 0) ∧
          ∀ file group layout, Text.isBlank layout = false →
            Agrees files config file layout (verdict file) (run (.scan [file]))
              (run (.process file group (some layout) false false)) := by
  refine ⟨fun options h hend => exists_sets_of_idle h hend, fun common names => ⟨?_, ?_⟩⟩
  · intro failure hconfig
    show scan files common _ names = _
    rw [scan, hconfig]
    rfl
  · intro config hconfig
    dsimp only [Request.outcome]
    refine ⟨exportsDefault files config, verdict_exportsDefault files config, ?_, ?_, ?_, ?_, ?_⟩
    · rw [scan_of_config hconfig]
      exact scans_all files config _ names
    · simp only [scan_alone hconfig]
      rw [scan_of_config hconfig]
      exact List.flatMap_map ..
    · simp only [scan_alone hconfig]
      rw [scan_of_config hconfig]
      exact List.flatMap_map ..
    · simp only [scan_alone hconfig]
      simp [scan_of_config hconfig, Outcome.all]
    · intro file group layout hblank
      exact agrees_of_config hconfig hblank _ file group

/-- A document that exports a default, one that is missing and one whose front matter is never
closed. -/
theorem scan_agrees_with_process_unclosed :
    let files := (FileTree.ofList [
      ("a.mdx".toList, .file "export default A\n".toUTF8),
      ("c.mdx".toList, .file "---\n".toUTF8)]).files
    let run := fun arguments => (Request.ofArguments (arguments.map String.toList)).outcome files []
    (run ["scan", "a.mdx", "b.mdx", "c.mdx"]).status ≠ 0 ∧
      (run ["process", "a.mdx", "--layout=l.js"]).output = "export default A\n".toList ∧
      (run ["process", "c.mdx", "--layout=l.js"]).status = 2 := by
  intro files run
  obtain ⟨hsets, hrun⟩ := scan_agrees_with_process files []
  obtain ⟨common, hread⟩ := hsets [] rfl (by simp)
  obtain rfl := hread.noOptions rfl
  have hconfig : configAt files ⟨none, false, false⟩ = .ok .standard := by rfl
  have hnames : Words ["a.mdx".toList, "b.mdx".toList, "c.mdx".toList]
      ["a.mdx".toList, "b.mdx".toList, "c.mdx".toList] :=
    .word (by simp) (by decide) (.word (by simp) (by decide) (.word (by simp) (by decide) .nil))
  obtain ⟨verdict, hverdict, -, -, -, hstatus, hagrees⟩ :=
    (hrun ⟨none, false, false⟩ ["a.mdx".toList, "b.mdx".toList, "c.mdx".toList]).2 _ hconfig
  have hblank : Text.isBlank "l.js".toList = false := by decide
  have hscan : run ["scan", "a.mdx", "b.mdx", "c.mdx"] =
      (Request.run ⟨none, false, false⟩ (.scan
        ["a.mdx".toList, "b.mdx".toList, "c.mdx".toList])).outcome files [] :=
    congrArg (Request.outcome files []) (hread.scan _ _ hnames (by simp))
  have hprocess : ∀ file, file ≠ [] → isOption file = false →
      (Request.ofArguments ["process".toList, file, "--layout=l.js".toList]).outcome files [] =
        (Request.run ⟨none, false, false⟩
          (.process file none (some "l.js".toList) false false)).outcome files [] :=
    fun file hfile hword =>
      congrArg (Request.outcome files []) (hread.process file "l.js".toList hfile hword)
  refine ⟨?_, ?_, ?_⟩
  · rw [hscan]
    intro h
    exact absurd (hstatus.1 h "c.mdx".toList (by simp)) (by decide +kernel)
  · have hfound : verdict "a.mdx".toList = .ok true := by
      have h : (exportsDefault files .standard "a.mdx".toList).toOption.any id = true := by
        decide +kernel
      obtain ⟨found, hfound, htrue⟩ := exists_ok_of_any h
      obtain rfl : found = true := htrue
      exact (eq_of_verdict (hverdict _)).symm.trans hfound
    obtain ⟨text, front, htext, -, -, hsame, -⟩ :=
      (hagrees "a.mdx".toList none "l.js".toList hblank).prints true hfound
    have hbytes : (files "a.mdx".toList).bind Text.ofBytes? = some "export default A\n".toList := by
      decide +kernel
    obtain rfl := Option.some.inj (hbytes.symm.trans htext)
    exact (congrArg Outcome.output (hprocess _ (by decide) (by decide))).trans (hsame.2 rfl)
  · have hfails := (hagrees "c.mdx".toList none "l.js".toList hblank).fails.2 (by decide +kernel)
    exact (congrArg Outcome.status (hprocess _ (by decide) (by decide))).trans hfails.1

end DocumentLayout.CommandLine
