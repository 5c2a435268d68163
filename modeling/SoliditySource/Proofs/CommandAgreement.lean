import SoliditySource.Command
import SoliditySource.Proofs.ManifestDocument
import SoliditySource.Proofs.RenderedLines

/-! The subcommands on one manifest file. Checking, rendering and raw rendering load the same
manifest and render the same document, so they succeed on the same files and fail with the same
problem on all others; what they print differs by the formatter alone. -/
namespace SoliditySource.Command

/-! Reading the words. -/

/-- The word can be given as the value of an option: it is not empty, and is not itself read as an
option. -/
structure IsValue (word : String) : Prop where
  nonempty : word ≠ ""
  notOption : isOption word.toList = false

/-- A short option that takes a value waits for the next word. -/
theorem readOptions_waiting {subcommand : Subcommand} {letter : Char} {setting : Setting}
    (hl : letter ≠ '-') (hm : shortMeaning (some subcommand) letter = some (.setting setting))
    (options : Options) (words : List String) :
    readOptions subcommand options none (String.ofList ['-', letter] :: words) =
      readOptions subcommand options (some setting) words := by
  have hwait : readShort (some subcommand) options [letter] = .ok (options, some setting) := by
    simp [readShort, hm]
  simp [readOptions, hl, hwait]

theorem readOptions_value {options next : Options} {setting : Setting} {value : String}
    (hv : IsValue value) (hs : options.set setting value.toList = .ok next)
    (subcommand : Subcommand) (words : List String) :
    readOptions subcommand options (some setting) (value :: words) =
      readOptions subcommand next none words := by
  rw [readOptions]
  simp [hv.notOption, hs]

/-- A setting that waits refuses every other word. -/
theorem readOptions_of_not_isValue {value : String} (hv : ¬IsValue value)
    (subcommand : Subcommand) (options : Options) (setting : Setting) (words : List String) :
    readOptions subcommand options (some setting) (value :: words) =
      .error (.usage (.missingValue setting)) := by
  rw [readOptions]
  cases ho : isOption value.toList with
  | true => simp
  | false =>
    have hempty : value = "" := by
      by_contra hne
      exact hv ⟨hne, ho⟩
    simp [hempty, Options.set]

theorem readOptions_config (subcommand : Subcommand) (options : Options) (words : List String) :
    readOptions subcommand options none ("-c" :: words) =
      readOptions subcommand options (some .config) words :=
  readOptions_waiting (by decide) (by cases subcommand <;> decide) options words

theorem readOptions_output (options : Options) (words : List String) :
    readOptions .render options none ("-o" :: words) =
      readOptions .render options (some .output) words :=
  readOptions_waiting (by decide) (by decide) options words

theorem readOptions_raw {options : Options} (hr : .raw ∉ options.flags) (words : List String) :
    readOptions .render options none ("--raw" :: words) =
      readOptions .render { options with flags := .raw :: options.flags } none words := by
  have hlong : readLong (some .render) options ['r', 'a', 'w'] =
      .ok ({ options with flags := .raw :: options.flags }, none) := by
    simp [readLong, longMeaning, Options.raise, hr, Except.map]
  simp [readOptions, hlong]

def Subcommand.word : Subcommand → String
  | render => "render"
  | check => "check"

/-- The subcommand comes first, and the words after it are its options. -/
theorem parse_word_cons (subcommand : Subcommand) (words : List String) :
    Invocation.parse (subcommand.word :: words) =
      (readOptions subcommand {} none words).map (.ofOptions subcommand) := by
  cases hread : readOptions subcommand {} none words <;> cases subcommand <;>
    simp [Invocation.parse, readWords, Subcommand.word, hread, Options.checkLogging, Except.map]

/-- The words after the path of the manifest are read with that path. -/
theorem parse_config {config : String} (hc : IsValue config) (subcommand : Subcommand)
    (words : List String) :
    Invocation.parse (subcommand.word :: "-c" :: config :: words) =
      (readOptions subcommand { config := some config } none words).map
        (.ofOptions subcommand) := by
  have hset : Options.set {} .config config.toList = .ok { config := some config } := by
    simp [Options.set, Options.get, hc.nonempty]
  rw [parse_word_cons, readOptions_config, readOptions_value hc hset]

theorem parse_config_of_not_isValue {config : String} (hc : ¬IsValue config)
    (subcommand : Subcommand) (words : List String) :
    Invocation.parse (subcommand.word :: "-c" :: config :: words) =
      .error (.usage (.missingValue .config)) := by
  rw [parse_word_cons, readOptions_config, readOptions_of_not_isValue hc]
  rfl

theorem parse_check {config : String} (hc : IsValue config) :
    Invocation.parse ["check", "-c", config] = .ok (.check config) :=
  parse_config hc .check []

def outputWords : Option String → List String
  | some path => ["-o", path]
  | none => []

/-- The words for a rendering, formatted or raw, with or without an output file. -/
def renderWords (config : String) (output : Option String) (raw : Bool) : List String :=
  "render" :: "-c" :: config :: (if raw then ["--raw"] else []) ++ outputWords output

example : renderWords "a.toml" (some "A.sol") true =
    ["render", "-c", "a.toml", "--raw", "-o", "A.sol"] := rfl

/-- The options that the words for a rendering give before the output file. -/
def renderOptions (config : String) (raw : Bool) : Options where
  config := some config
  flags := if raw then [.raw] else []

theorem parse_renderWords_eq {config : String} (hc : IsValue config) (output : Option String)
    (raw : Bool) :
    Invocation.parse (renderWords config output raw) =
      (readOptions .render (renderOptions config raw) none (outputWords output)).map
        (.ofOptions .render) := by
  cases raw with
  | false => exact parse_config hc .render _
  | true =>
    refine (parse_config hc .render _).trans (congrArg _ ?_)
    exact readOptions_raw (by simp) _

theorem parse_renderWords {config : String} (hc : IsValue config) {output : Option String}
    (ho : ∀ path ∈ output, IsValue path) (raw : Bool) :
    Invocation.parse (renderWords config output raw) = .ok (.render config output raw) := by
  rw [parse_renderWords_eq hc]
  cases output with
  | none => cases raw <;> rfl
  | some path =>
    have hset : (renderOptions config raw).set .output path.toList =
        .ok { renderOptions config raw with output := some path } := by
      simp [Options.set, Options.get, renderOptions, (ho path rfl).nonempty]
    rw [outputWords, readOptions_output, readOptions_value (ho path rfl) hset]
    cases raw <;> rfl

/-- Words that name no output file are not understood. -/
theorem parse_renderWords_of_not_isValue {config path : String} (hc : IsValue config)
    (hp : ¬IsValue path) (raw : Bool) :
    Invocation.parse (renderWords config (some path) raw) =
      .error (.usage (.missingValue .output)) := by
  rw [parse_renderWords_eq hc, outputWords, readOptions_output, readOptions_of_not_isValue hp]
  rfl

/-! What all runs share. -/

/-- The file can be read as a manifest, and the first declaration is a container. -/
def Accepts (content : Except ReadFailure String) (m : Manifest) : Prop :=
  ∃ source, content = .ok source ∧ Manifest.parse source = .ok m ∧
    StartsWithContainer m.declarations

theorem renderManifest_true {m : Manifest} {doc : Document} (h : m.toDocument = .ok doc) :
    renderManifest m true = doc.renderRaw.mapError .document := by
  have hrender : (doc.setFormatter .passthrough).render = doc.renderRaw := by
    change doc.renderRaw.map id = doc.renderRaw
    cases doc.renderRaw <;> rfl
  simp [renderManifest, h, hrender, bind, Except.bind]

/-- The text of a manifest as it is shown, which is formatted unless it is to stay raw. -/
def shown (m : Manifest) (raw : Bool) (text : String) : String :=
  if raw then text else (Formatter.braces m.indent).format text

theorem renderManifest_eq {m : Manifest} {doc : Document} (h : m.toDocument = .ok doc)
    (hf : doc.formatter = .braces m.indent) (raw : Bool) :
    renderManifest m raw = (renderManifest m true).map (shown m raw) := by
  cases raw with
  | true => cases renderManifest m true <;> rfl
  | false =>
    have hrender : doc.render = doc.renderRaw.map (Formatter.braces m.indent).format := by
      rw [Document.render, hf]
    have hfalse : renderManifest m false = doc.render.mapError .document := by
      simp [renderManifest, h, bind, Except.bind]
    rw [renderManifest_true h, hfalse, hrender]
    cases doc.renderRaw <;> rfl

/-- The manifest of a file and its flat text. -/
def load (config : String) (content : Except ReadFailure String) :
    Except Manifest.Problem (Manifest × String) := do
  let m ← Manifest.ofFile config content
  let text ← renderManifest m true
  return (m, text)

/-- What a run does with a manifest and its flat text. -/
def Invocation.effect (m : Manifest) (text : String) : Invocation → Effect
  | check config => .print (summary config m)
  | render _ (some path) raw => .save path (shown m raw text)
  | render _ none raw => .print (shown m raw text ++ "\n")

theorem exists_source_of_ofFile {config : String} {content : Except ReadFailure String}
    {m : Manifest} (h : Manifest.ofFile config content = .ok m) :
    ∃ source, content = .ok source ∧ Manifest.parse source = .ok m := by
  cases content with
  | error failure => cases h
  | ok source => exact ⟨source, rfl, h⟩

/-- Every run loads the manifest and its flat text, and fails only where that fails. -/
theorem Invocation.run_eq (invocation : Invocation) (content : Except ReadFailure String) :
    invocation.run content =
      (load invocation.config content).map fun loaded => invocation.effect loaded.1 loaded.2 := by
  cases hm : Manifest.ofFile invocation.config content with
  | error problem => simp [run, load, hm, bind, Except.bind, Except.map]
  | ok m =>
    obtain ⟨source, -, hparse⟩ := exists_source_of_ofFile hm
    obtain ⟨doc, hd, -, hf, -⟩ := Manifest.exists_document_of_parse hparse
    have hrender := renderManifest_eq hd hf
    cases invocation with
    | render config output raw =>
      simp only [run, load, hm, bind, Except.bind, hrender raw]
      cases renderManifest m true <;> cases output <;> rfl
    | check config =>
      simp only [run, load, hm, bind, Except.bind, hrender false]
      cases renderManifest m true <;> rfl

/-- An accepted file is loaded, with the flat text of the document of its manifest. -/
theorem load_of_accepts {content : Except ReadFailure String} {m : Manifest}
    (h : Accepts content m) (config : String) :
    ∃ doc text, m.toDocument = .ok doc ∧ doc.toList = m.declarations ∧
      doc.renderRaw = .ok text ∧ load config content = .ok (m, text) := by
  obtain ⟨source, rfl, hparse, hfirst⟩ := h
  obtain ⟨doc, hd, hlist, -⟩ := Manifest.exists_document_of_parse hparse
  obtain ⟨flat, hflat⟩ := (exists_renderDeclarations_iff m.declarations).mpr hfirst
  have hraw : doc.renderRaw = .ok (doc.rules.apply flat) := by
    rw [Document.renderRaw, hlist, hflat]
    rfl
  have htext : renderManifest m true = .ok (doc.rules.apply flat) := by
    rw [renderManifest_true hd, hraw]
    rfl
  refine ⟨doc, _, hd, hlist, hraw, ?_⟩
  simp [load, Manifest.ofFile, hparse, htext, bind, Except.bind, pure, Except.pure]

/-- Only accepted files are loaded. -/
theorem accepts_of_load {config : String} {content : Except ReadFailure String} {m : Manifest}
    {text : String} (h : load config content = .ok (m, text)) : Accepts content m := by
  cases hm : Manifest.ofFile config content with
  | error problem => simp [load, hm, bind, Except.bind] at h
  | ok read =>
    cases htext : renderManifest read true with
    | error problem => simp [load, hm, htext, bind, Except.bind] at h
    | ok flat =>
      obtain ⟨rfl, rfl⟩ : read = m ∧ flat = text := by
        simpa [load, hm, htext, bind, Except.bind, pure, Except.pure] using h
      obtain ⟨source, rfl, hparse⟩ := exists_source_of_ofFile hm
      obtain ⟨doc, hd, hlist, -⟩ := Manifest.exists_document_of_parse hparse
      refine ⟨source, rfl, hparse, (exists_renderDeclarations_iff _).mp ?_⟩
      rw [renderManifest_true hd, Document.renderRaw, hlist] at htext
      cases hr : renderDeclarations read.declarations with
      | error problem => simp [hr, Except.map, Except.mapError] at htext
      | ok unruled => exact ⟨unruled, rfl⟩

/-! Whole runs. -/

/-- Why a run does nothing: its words are not understood, or the manifest has a problem. -/
inductive Failure where
  | usage (error : UsageError)
  | problem (problem : Manifest.Problem)
deriving DecidableEq, Repr

/-- The words do nothing, for the given reason. -/
def FailsWith (files : Files) (words : List String) : Failure → Prop
  | .usage error => Invocation.parse words = .error (.usage error)
  | .problem problem => ∃ invocation, Invocation.parse words = .ok invocation ∧
      invocation.run (files.read invocation.config) = .error problem

theorem FailsWith.result {files : Files} {words : List String} {failure : Failure}
    (h : FailsWith files words failure) :
    (execute files words).exit ≠ 0 ∧ (execute files words).stdout = "" ∧
      (execute files words).files = files := by
  cases failure with
  | usage error =>
    have hp : Invocation.parse words = .error (.usage error) := h
    simp [execute, hp]
  | problem problem =>
    obtain ⟨invocation, hp, hrun⟩ := h
    simp [execute, hp, hrun, perform]

variable {files : Files} {words : List String} {invocation : Invocation} {config : String}

theorem execute_of_load (hp : Invocation.parse words = .ok invocation)
    (hc : invocation.config = config) {m : Manifest} {text : String}
    (hl : load config (files.read config) = .ok (m, text)) :
    execute files words = perform files (.ok (invocation.effect m text)) := by
  subst hc
  have hrun : invocation.run (files.read invocation.config) = .ok (invocation.effect m text) := by
    rw [invocation.run_eq, hl]
    rfl
  rw [execute, hp]
  exact congrArg (perform files) hrun

theorem failsWith_of_load (hp : Invocation.parse words = .ok invocation)
    (hc : invocation.config = config) {problem : Manifest.Problem}
    (hl : load config (files.read config) = .error problem) :
    FailsWith files words (.problem problem) := by
  subst hc
  refine ⟨invocation, hp, ?_⟩
  rw [invocation.run_eq, hl]
  rfl

/-- The words name a manifest file, and the file is accepted. -/
def Renders (files : Files) (config : String) : Prop :=
  IsValue config ∧ ∃ m, Accepts (files.read config) m

/-- A named file that is not accepted is not loaded. -/
theorem exists_problem_of_not_renders (hc : IsValue config) (h : ¬Renders files config) :
    ∃ problem, load config (files.read config) = .error problem := by
  cases hl : load config (files.read config) with
  | error problem => exact ⟨problem, rfl⟩
  | ok loaded => exact absurd ⟨hc, loaded.1, accepts_of_load hl⟩ h

/-- The words for the runs that print: the check, the rendering and the raw rendering. -/
def printingWords (config : String) : List (List String) :=
  [["check", "-c", config], renderWords config none false, renderWords config none true]

theorem forall_printingWords {p : List String → Prop} :
    (∀ words ∈ printingWords config, p words) ↔
      p ["check", "-c", config] ∧ ∀ raw, p (renderWords config none raw) := by
  simp [printingWords, Bool.forall_bool]

/-- All runs that print fail for the same reason. -/
theorem exists_failsWith (h : ¬Renders files config) :
    ∃ failure, ∀ words ∈ printingWords config, FailsWith files words failure := by
  by_cases hc : IsValue config
  · obtain ⟨problem, hl⟩ := exists_problem_of_not_renders hc h
    refine ⟨.problem problem, forall_printingWords.mpr ⟨?_, fun raw => ?_⟩⟩
    · exact failsWith_of_load (parse_check hc) rfl hl
    · exact failsWith_of_load (parse_renderWords hc (by simp) raw) rfl hl
  · refine ⟨.usage (.missingValue .config), forall_printingWords.mpr ⟨?_, fun raw => ?_⟩⟩
    · exact parse_config_of_not_isValue hc .check []
    · exact parse_config_of_not_isValue hc .render _

/-- So do renderings to a file, unless that file is not named. -/
theorem exists_failsWith_output (h : ¬Renders files config) (output : String) (raw : Bool) :
    ∃ failure, FailsWith files (renderWords config (some output) raw) failure := by
  by_cases hc : IsValue config
  · by_cases ho : IsValue output
    · obtain ⟨problem, hl⟩ := exists_problem_of_not_renders hc h
      exact ⟨_, failsWith_of_load (parse_renderWords hc (by simpa using ho) raw) rfl hl⟩
    · exact ⟨.usage (.missingValue .output), parse_renderWords_of_not_isValue hc ho raw⟩
  · exact ⟨.usage (.missingValue .config), parse_config_of_not_isValue hc .render _⟩

theorem exit_of_renders (h : Renders files config) :
    ∀ words ∈ printingWords config, (execute files words).exit = 0 := by
  obtain ⟨hc, m, hm⟩ := h
  obtain ⟨doc, text, -, -, -, hl⟩ := load_of_accepts hm config
  refine forall_printingWords.mpr ⟨?_, fun raw => ?_⟩
  · rw [execute_of_load (parse_check hc) rfl hl]
    rfl
  · rw [execute_of_load (parse_renderWords hc (by simp) raw) rfl hl]
    rfl

/-- Containers and members together are all declarations. -/
theorem countP_isContainer_add (ds : List Declaration) :
    ds.countP (·.isContainer) + (ds.length - ds.countP (·.isContainer)) = ds.length := by
  have hle : ds.countP (·.isContainer) ≤ ds.length := List.countP_le_length
  omega

/-- The check, the rendering and the raw rendering of a file end well together: when the file is
named and can be read as a manifest whose first declaration is a container. Otherwise they fail for
the same reason, and a rendering to a file leaves all files alone. On an accepted file, the check
counts the declarations of the document that is rendered, and the rendering shows the formatted form
of what the raw rendering shows. -/
theorem execute_agree (files : Files) (config : String) :
    (∀ words ∈ printingWords config, (execute files words).exit = 0 ↔ Renders files config) ∧
    (¬Renders files config →
      (∃ failure, ∀ words ∈ printingWords config, FailsWith files words failure) ∧
      ∀ output raw, (execute files (renderWords config (some output) raw)).exit ≠ 0 ∧
        (execute files (renderWords config (some output) raw)).files = files) ∧
    ∀ m, IsValue config → Accepts (files.read config) m →
      ∃ doc text containers members, m.toDocument = .ok doc ∧ doc.toList = m.declarations ∧
        doc.renderRaw = .ok text ∧ containers = doc.toList.countP (·.isContainer) ∧
        containers + members = doc.size ∧
        (execute files ["check", "-c", config]).stdout =
          "✓ " ++ config ++ " is valid\n\n" ++ "  " ++ count containers "container" ++ "\n" ++
            "  " ++ count members "member" ++ "\n" ++
            "  " ++ count m.replacements.length "replacement" ++ "\n" ∧
        (execute files (renderWords config none true)).stdout = text ++ "\n" ∧
        (execute files (renderWords config none false)).stdout =
          (Formatter.braces m.indent).format text ++ "\n" := by
  refine ⟨fun words hw => ⟨fun hexit => ?_, fun h => exit_of_renders h words hw⟩, fun h => ?_,
    fun m hc hm => ?_⟩
  · -- A run that has a reason to fail does not end well.
    by_contra h
    obtain ⟨failure, hfails⟩ := exists_failsWith h
    exact (hfails words hw).result.1 hexit
  · refine ⟨exists_failsWith h, fun output raw => ?_⟩
    obtain ⟨failure, hfails⟩ := exists_failsWith_output h output raw
    exact ⟨hfails.result.1, hfails.result.2.2⟩
  · obtain ⟨doc, text, hd, hlist, hraw, hl⟩ := load_of_accepts hm config
    have hprinted : ∀ raw, execute files (renderWords config none raw) =
        ⟨0, shown m raw text ++ "\n", files⟩ := fun raw =>
      execute_of_load (parse_renderWords hc (by simp) raw) rfl hl
    have hsize : doc.size = m.declarations.length := by
      rw [← hlist, Document.toList, OrderedMap.values, List.length_map]
      rfl
    refine ⟨doc, text, m.declarations.countP (·.isContainer),
      m.declarations.length - m.declarations.countP (·.isContainer), hd, hlist, hraw,
      by rw [hlist], hsize ▸ countP_isContainer_add m.declarations, ?_, ?_, ?_⟩
    · rw [execute_of_load (parse_check hc) rfl hl]
      rfl
    · rw [hprinted true]
      rfl
    · rw [hprinted false]
      rfl

theorem fromUTF8?_toUTF8 (text : String) : String.fromUTF8? text.toUTF8 = some text := by
  rw [String.fromUTF8?, String.toUTF8_eq_toByteArray, dif_pos text.isValidUTF8]
  rfl

/-- A directory with one manifest in it. -/
def patternTwiceFiles : Files :=
  ⟨[({ names := ["sol.toml"] }, Manifest.patternTwice.toUTF8)]⟩

theorem patternTwiceFiles_read :
    patternTwiceFiles.read "sol.toml" = .ok Manifest.patternTwice := by
  have hplace : patternTwiceFiles.locate "sol.toml" = .ok { names := ["sol.toml"] } := rfl
  have hcontent : patternTwiceFiles.content? { names := ["sol.toml"] } =
      some Manifest.patternTwice.toUTF8 := rfl
  simp only [Files.read, hplace, bind, Except.bind, hcontent, fromUTF8?_toUTF8]

/-- The manifest of the directory is accepted, and a path that is not there is not. -/
theorem patternTwiceFiles_execute :
    (∀ words ∈ printingWords "sol.toml", (execute patternTwiceFiles words).exit = 0) ∧
      ∀ output raw, (execute patternTwiceFiles (renderWords "a.toml" (some output) raw)).files =
        patternTwiceFiles := by
  have hvalue : IsValue "sol.toml" := ⟨by decide, by decide⟩
  have haccepts : Accepts (patternTwiceFiles.read "sol.toml") Manifest.patternTwiceManifest :=
    ⟨_, patternTwiceFiles_read, Manifest.parse_patternTwice, _, _, rfl⟩
  have habsent : ¬Renders patternTwiceFiles "a.toml" := by
    rintro ⟨-, m, source, hread, -⟩
    cases (rfl : patternTwiceFiles.read "a.toml" = .error .notFound).symm.trans hread
  refine ⟨fun words hw => ?_, fun output raw => ?_⟩
  · exact ((execute_agree patternTwiceFiles "sol.toml").1 words hw).mpr ⟨hvalue, _, haccepts⟩
  · exact (((execute_agree patternTwiceFiles "a.toml").2.1 habsent).2 output raw).2

end SoliditySource.Command
