import ZapTrace.Library.Json
import ZapTrace.Proof.StableId

/-!
# Bundles of proof packs

A bundle is an archive of the manifest, the results and the identity of a pack, with the design and other files.
Before it is written, fields of the manifest that are empty are filled: the environment, the record of the input, the
hash of the design and the metadata of the external tool. Three of the fields that are filled count for the identity.

What the bundle finds in files and in the environment is a parameter.

## Main results

* `kept_bundle_iff`: when a bundle changes no field that counts
* `stable_iff`: when the identity is stable
-/

namespace ZapTrace.ProofPack

open Manifest PyValue

/-! ## The bundle -/

/-- A digest in hexadecimal digits. -/
structure Sha256 where
  text : String
  nonempty : text ≠ ""

structure FileContent where
  sha256 : String
  size_bytes : ℕ

/-- The file of the design. One that cannot be read, or that is no design, raises an error when it is loaded. -/
inductive DesignFile
  | absent
  | unreadable (error : String)
  | broken (checksum : Sha256) (error : String)
  | loads (checksum state_hash : Sha256) (design_yaml : FileContent)

/-- What a bundle finds in files and in the environment. -/
structure World where
  /-- The file at the path of the design. -/
  design_file : String → DesignFile
  /-- The file at a path, if there is one. -/
  reference : String → Option FileContent
  environment : EnvironmentRecord
  /-- The evidence for the external tool, when there is none. -/
  oracle : List PyValue
  infer_kind : String → String
  /-- A duration without digits after the point. -/
  fixed0 : ℚ → String
  evaluate : Manifest → List ResultRecord → PyValue
  report_json : Manifest → List ResultRecord → Except String String

/-- What an archive has: the manifest, the results, the identity, and files. -/
structure Archive where
  manifest : Dict String PyValue
  results : String
  stable_id : String
  files : List ArtifactRecord

variable (w : World)

def Manifest.captureEnvironment (m : Manifest) : Manifest :=
  if m.environment.zaptrace_version = "" then { m with environment := w.environment } else m

def fileRecord (m : Manifest) (checksum : Sha256) : InputRecord where
  source_type := "file"
  filename := pathName m.design_path
  checksum_sha256 := some checksum.text

/-- `_capture_input_checksum`, when there is no checksum. A file that cannot be read is passed over. -/
def Manifest.captureInputChecksum (m : Manifest) : Manifest :=
  if m.input_record.checksum_sha256.getD "" ≠ "" then m
  else
    match w.design_file m.design_path with
    | .absent => m
    | .unreadable _ => m
    | .broken checksum _ => { m with input_record := fileRecord m checksum }
    | .loads checksum _ _ => { m with input_record := fileRecord m checksum }

/-- `_capture_final_state_hash`, when there is no hash -/
def Manifest.captureFinalStateHash (m : Manifest) : Except String Manifest :=
  if m.final_state_hash ≠ "" then .ok m
  else
    match w.design_file m.design_path with
    | .absent => .ok { m with final_state_hash := "" }
    | .unreadable error => .error error
    | .broken _ error => .error error
    | .loads _ state_hash _ => .ok { m with final_state_hash := state_hash.text }

/-- `_capture_kicad_oracle_metadata`, when there is no evidence -/
def Manifest.captureKicadOracleMetadata (m : Manifest) : Manifest :=
  if m.kicad_oracle.isEmpty then { m with requires_kicad_oracle := true, kicad_oracle := w.oracle } else m

/-- `_populate_check_records` and `update_autonomous_signoff` -/
def Manifest.populate (m : Manifest) (results : List ResultRecord) : Manifest :=
  let records : List CheckRecord := results.map fun result =>
    { name := result.name
      status := result.status
      severity := result.severity
      summary := s!"{result.message} ({w.fixed0 result.duration_ms}ms)" }
  let m := { m with check_records := records }
  { m with autonomous_signoff := w.evaluate m results }

def designArtifacts (m : Manifest) : Except String (List ArtifactRecord) :=
  match w.design_file m.design_path with
  | .absent => .ok []
  | .unreadable error => .error error
  | .broken _ error => .error error
  | .loads _ _ design_yaml =>
    .ok [{ path := "design.yaml", kind := "other", sha256 := some design_yaml.sha256,
           size_bytes := design_yaml.size_bytes }]

/-- The files that the manifest refers to, in the archive. -/
def referenceArtifacts (m : Manifest) : List ArtifactRecord :=
  m.references.items.filterMap fun item =>
    (w.reference item.2).map fun data =>
      { path := s!"artifacts/{item.1}", kind := w.infer_kind item.1, sha256 := some data.sha256,
        size_bytes := data.size_bytes }

variable (digest : (String → Option PyValue) → List PyValue → String) (jsonCopy : PyValue → PyValue)

/-- `bundle`: an archive or an error, and the pack afterwards -/
def Pack.bundle (pack : Pack) : Except String Archive × Pack :=
  let m := (pack.manifest.captureEnvironment w).captureInputChecksum w
  match m.captureFinalStateHash w with
  | .error error => (.error error, { pack with manifest := m })
  | .ok m =>
    let m := (m.captureKicadOracleMetadata w).populate w pack.results
    match w.report_json m pack.results with
    | .error error => (.error error, { pack with manifest := m })
    | .ok _ =>
      match designArtifacts w m with
      | .error error => (.error error, { pack with manifest := m })
      | .ok records =>
        let pack := { pack with manifest := { m with artifacts := records ++ referenceArtifacts w m } }
        match w.report_json pack.manifest pack.results with
        | .error error => (.error error, pack)
        | .ok report =>
          (.ok
            { manifest := pack.manifest.dump
              results := report
              stable_id := pack.stableId digest jsonCopy
              files := pack.manifest.artifacts },
            pack)

/-! ## What a bundle changes -/

/-- The file of the design can be read. -/
def DesignFile.IsReadable : DesignFile → Prop
  | .broken _ _ => True
  | .loads _ _ _ => True
  | _ => False

def DesignFile.Loads : DesignFile → Prop
  | .loads _ _ _ => True
  | _ => False

/-- The file of the design raises an error when it is loaded. -/
def DesignFile.Raises : DesignFile → Prop
  | .unreadable _ => True
  | .broken _ _ => True
  | _ => False

/-- Each field that counts is set where the bundle would fill it: the checksum of the design where there is a file,
the hash of the design where it loads, and the mark for the external tool, unless an error comes before. -/
structure Captured (m : Manifest) : Prop where
  checksum : (w.design_file m.design_path).IsReadable → m.input_record.checksum_sha256.getD "" ≠ ""
  state_hash : (w.design_file m.design_path).Loads → m.final_state_hash ≠ ""
  oracle : ((w.design_file m.design_path).Raises → m.final_state_hash ≠ "") → m.kicad_oracle = [] →
    m.requires_kicad_oracle = true

/-- Two manifests have the same in all fields that count but three. -/
structure SameBut (m m' : Manifest) : Prop where
  name : m'.name = m.name
  design_path : m'.design_path = m.design_path
  references : m'.references = m.references
  architecture_evidence : m'.architecture_evidence = m.architecture_evidence
  fields : m'.fields = m.fields

theorem optionalText_inj {text text' : Option String} (h : optionalText text = optionalText text') : text = text' := by
  cases text with
  | none =>
    cases text' with
    | none => rfl
    | some text' => cases h
  | some text =>
    cases text' with
    | none => cases h
    | some text' => exact congrArg some (str.inj h)

theorem InputRecord.dump_inj {record record' : InputRecord} (h : record.dump = record'.dump) : record = record' := by
  obtain ⟨source_type, filename, checksum, intent⟩ := record
  obtain ⟨source_type', filename', checksum', intent'⟩ := record'
  simp only [InputRecord.dump, dict.injEq, List.cons.injEq, Prod.mk.injEq, str.injEq, true_and,
    and_true] at h
  obtain ⟨rfl, rfl, hchecksum, hintent⟩ := h
  rw [optionalText_inj hchecksum, optionalText_inj hintent]

theorem SameBut.kept_eq_iff {m m' : Manifest} (h : SameBut m m') :
    m'.kept = m.kept ↔ m'.input_record = m.input_record ∧ m'.final_state_hash = m.final_state_hash ∧
      m'.requires_kicad_oracle = m.requires_kicad_oracle := by
  constructor
  · intro heq
    have hrecord : some m'.input_record.dump = some m.input_record.dump := congrFun heq "input_record"
    have hhash : some (str m'.final_state_hash) = some (str m.final_state_hash) :=
      congrFun heq "final_state_hash"
    have horacle : some (bool m'.requires_kicad_oracle) = some (bool m.requires_kicad_oracle) :=
      congrFun heq "requires_kicad_oracle"
    exact ⟨InputRecord.dump_inj (Option.some.inj hrecord), str.inj (Option.some.inj hhash),
      bool.inj (Option.some.inj horacle)⟩
  · rintro ⟨hrecord, hhash, horacle⟩
    ext1 key
    unfold kept
    rw [h.name, h.design_path, h.references, h.architecture_evidence, h.fields, hrecord, hhash, horacle]

variable {w digest jsonCopy}

/-- The manifest after the record of the input is filled. -/
def Manifest.recorded (w : World) (m : Manifest) : Manifest := (m.captureEnvironment w).captureInputChecksum w

/-- **What a bundle leaves**: the manifest up to the error of the design, or the manifest with all that is filled. -/
theorem bundle_cases (pack : Pack) :
    (∃ error, (pack.manifest.recorded w).captureFinalStateHash w = .error error ∧
        (pack.bundle w digest jsonCopy).1 = .error error ∧
        (pack.bundle w digest jsonCopy).2 = { pack with manifest := pack.manifest.recorded w }) ∨
      ∃ m artifacts, (pack.manifest.recorded w).captureFinalStateHash w = .ok m ∧
        (pack.bundle w digest jsonCopy).2 =
          { pack with
            manifest :=
              { (m.captureKicadOracleMetadata w).populate w pack.results with artifacts := artifacts } } := by
  obtain ⟨recorded, hrecorded⟩ : ∃ recorded, recorded = pack.manifest.recorded w := ⟨_, rfl⟩
  have hunfold : (pack.manifest.captureEnvironment w).captureInputChecksum w = recorded := hrecorded.symm
  unfold Pack.bundle
  dsimp only
  rw [hunfold, ← hrecorded]
  cases hhash : recorded.captureFinalStateHash w with
  | error error => exact .inl ⟨error, rfl, rfl, rfl⟩
  | ok m =>
    obtain ⟨filled, hfilled⟩ : ∃ filled, filled = (m.captureKicadOracleMetadata w).populate w pack.results := ⟨_, rfl⟩
    dsimp only
    rw [← hfilled]
    refine .inr ⟨m, ?_⟩
    rw [← hfilled]
    cases w.report_json filled pack.results with
    | error _ => exact ⟨filled.artifacts, rfl, rfl⟩
    | ok _ =>
      cases designArtifacts w filled with
      | error _ => exact ⟨filled.artifacts, rfl, rfl⟩
      | ok records =>
        refine ⟨records ++ referenceArtifacts w filled, rfl, ?_⟩
        dsimp only
        split <;> rfl

/-- The identity in an archive is the one of the pack afterwards. -/
theorem stable_id_bundle {pack : Pack} {archive : Archive} (h : (pack.bundle w digest jsonCopy).1 = .ok archive) :
    archive.stable_id = (pack.bundle w digest jsonCopy).2.stableId digest jsonCopy := by
  unfold Pack.bundle at h ⊢
  dsimp only at h ⊢
  generalize (pack.manifest.captureEnvironment w).captureInputChecksum w = recorded at h ⊢
  cases hhash : recorded.captureFinalStateHash w with
  | error error =>
    rw [hhash] at h
    cases h
  | ok m =>
    rw [hhash] at h
    dsimp only at h ⊢
    generalize (m.captureKicadOracleMetadata w).populate w pack.results = filled at h ⊢
    cases hreport : w.report_json filled pack.results with
    | error _ =>
      rw [hreport] at h
      cases h
    | ok _ =>
      rw [hreport] at h
      cases hdesign : designArtifacts w filled with
      | error _ =>
        rw [hdesign] at h
        cases h
      | ok records =>
        rw [hdesign] at h
        dsimp only at h ⊢
        generalize w.report_json _ _ = report at h ⊢
        cases report with
        | error _ => cases h
        | ok _ =>
          dsimp only at h ⊢
          rw [← Except.ok.inj h]

/-! ### The fields that are filled -/

section Filled

variable {m : Manifest}

theorem sameBut_recorded : SameBut m (m.recorded w) := by
  have henvironment : SameBut m (m.captureEnvironment w) := by
    unfold captureEnvironment
    split <;> exact ⟨rfl, rfl, rfl, rfl, rfl⟩
  unfold recorded captureInputChecksum
  split
  · exact henvironment
  · split <;> exact ⟨henvironment.name, henvironment.design_path, henvironment.references,
      henvironment.architecture_evidence, henvironment.fields⟩

theorem recorded_keeps : (m.recorded w).final_state_hash = m.final_state_hash ∧
    (m.recorded w).requires_kicad_oracle = m.requires_kicad_oracle ∧ (m.recorded w).kicad_oracle = m.kicad_oracle := by
  have henvironment : (m.captureEnvironment w).final_state_hash = m.final_state_hash ∧
      (m.captureEnvironment w).requires_kicad_oracle = m.requires_kicad_oracle ∧
      (m.captureEnvironment w).kicad_oracle = m.kicad_oracle := by
    unfold captureEnvironment
    split <;> exact ⟨rfl, rfl, rfl⟩
  unfold recorded captureInputChecksum
  split
  · exact henvironment
  · split <;> exact henvironment

theorem input_record_recorded_iff : (m.recorded w).input_record = m.input_record ↔
    ((w.design_file m.design_path).IsReadable → m.input_record.checksum_sha256.getD "" ≠ "") := by
  have henvironment : (m.captureEnvironment w).input_record = m.input_record ∧
      (m.captureEnvironment w).design_path = m.design_path := by
    unfold captureEnvironment
    split <;> exact ⟨rfl, rfl⟩
  unfold recorded captureInputChecksum
  rw [henvironment.1, henvironment.2]
  by_cases hchecksum : m.input_record.checksum_sha256.getD "" ≠ ""
  · rw [if_pos hchecksum]
    exact iff_of_true henvironment.1 fun _ => hchecksum
  · rw [if_neg hchecksum]
    -- a record with a checksum is not one without
    have hfilled : ∀ {checksum : Sha256} {m' : Manifest}, fileRecord m' checksum ≠ m.input_record := by
      intro checksum m' heq
      apply hchecksum
      rw [← heq]
      exact checksum.nonempty
    cases w.design_file m.design_path with
    | absent => exact iff_of_true henvironment.1 False.elim
    | unreadable _ => exact iff_of_true henvironment.1 False.elim
    | broken checksum _ => exact iff_of_false hfilled fun h => hchecksum (h trivial)
    | loads checksum _ _ => exact iff_of_false hfilled fun h => hchecksum (h trivial)

theorem captureFinalStateHash_ok {m' : Manifest} (h : m.captureFinalStateHash w = .ok m') :
    SameBut m m' ∧ m'.input_record = m.input_record ∧ m'.requires_kicad_oracle = m.requires_kicad_oracle ∧
      m'.kicad_oracle = m.kicad_oracle ∧
      (m'.final_state_hash = m.final_state_hash ↔ ((w.design_file m.design_path).Loads → m.final_state_hash ≠ "")) ∧
      ((w.design_file m.design_path).Raises → m.final_state_hash ≠ "") := by
  unfold captureFinalStateHash at h
  by_cases hhash : m.final_state_hash ≠ ""
  · rw [if_pos hhash] at h
    cases h
    exact ⟨⟨rfl, rfl, rfl, rfl, rfl⟩, rfl, rfl, rfl, iff_of_true rfl fun _ => hhash, fun _ => hhash⟩
  · rw [if_neg hhash] at h
    have hempty : m.final_state_hash = "" := not_not.mp hhash
    cases hfile : w.design_file m.design_path with
    | absent =>
      rw [hfile] at h
      cases h
      exact ⟨⟨rfl, rfl, rfl, rfl, rfl⟩, rfl, rfl, rfl, iff_of_true hempty.symm False.elim, False.elim⟩
    | unreadable _ =>
      rw [hfile] at h
      cases h
    | broken _ _ =>
      rw [hfile] at h
      cases h
    | loads _ state_hash _ =>
      rw [hfile] at h
      cases h
      refine ⟨⟨rfl, rfl, rfl, rfl, rfl⟩, rfl, rfl, rfl, iff_of_false ?_ fun h => hhash (h trivial), False.elim⟩
      intro heq
      exact state_hash.nonempty (heq.trans hempty)

theorem captureFinalStateHash_error {error : String} (h : m.captureFinalStateHash w = .error error) :
    (w.design_file m.design_path).Raises ∧ m.final_state_hash = "" := by
  unfold captureFinalStateHash at h
  by_cases hhash : m.final_state_hash ≠ ""
  · rw [if_pos hhash] at h
    cases h
  · rw [if_neg hhash] at h
    refine ⟨?_, not_not.mp hhash⟩
    cases hfile : w.design_file m.design_path with
    | absent =>
      rw [hfile] at h
      cases h
    | unreadable _ => trivial
    | broken _ _ => trivial
    | loads _ _ _ =>
      rw [hfile] at h
      cases h

theorem populate_captureKicadOracleMetadata (results : List ResultRecord) :
    SameBut m ((m.captureKicadOracleMetadata w).populate w results) ∧
      ((m.captureKicadOracleMetadata w).populate w results).input_record = m.input_record ∧
      ((m.captureKicadOracleMetadata w).populate w results).final_state_hash = m.final_state_hash ∧
      (((m.captureKicadOracleMetadata w).populate w results).requires_kicad_oracle = m.requires_kicad_oracle ↔
        (m.kicad_oracle = [] → m.requires_kicad_oracle = true)) := by
  unfold populate captureKicadOracleMetadata
  by_cases hempty : m.kicad_oracle = []
  · rw [if_pos (List.isEmpty_iff.mpr hempty)]
    exact ⟨⟨rfl, rfl, rfl, rfl, rfl⟩, rfl, rfl, fun h _ => h.symm, fun h => (h hempty).symm⟩
  · rw [if_neg fun h => hempty (List.isEmpty_iff.mp h)]
    exact ⟨⟨rfl, rfl, rfl, rfl, rfl⟩, rfl, rfl, iff_of_true rfl fun h => absurd h hempty⟩

end Filled

theorem SameBut.trans {m m' m'' : Manifest} (h : SameBut m m') (h' : SameBut m' m'') : SameBut m m'' :=
  ⟨h'.name.trans h.name, h'.design_path.trans h.design_path, h'.references.trans h.references,
    h'.architecture_evidence.trans h.architecture_evidence, h'.fields.trans h.fields⟩

/-- **A bundle changes no field that counts** exactly when none that counts is filled. -/
theorem kept_bundle_iff (pack : Pack) :
    (pack.bundle w digest jsonCopy).2.manifest.kept = pack.manifest.kept ↔ Captured w pack.manifest := by
  obtain ⟨hhash, hrequires, horacle⟩ := @recorded_keeps w pack.manifest
  have hpath := (@sameBut_recorded w pack.manifest).design_path
  have hrecord := @input_record_recorded_iff w pack.manifest
  rcases @bundle_cases w digest jsonCopy pack with ⟨error, herror, -, hafter⟩ | ⟨m, artifacts, hok, hafter⟩
  · -- the design raises an error before the tool is looked for
    rw [hafter, sameBut_recorded.kept_eq_iff]
    obtain ⟨hraises, hempty⟩ := captureFinalStateHash_error herror
    rw [hpath] at hraises
    rw [hhash] at hempty
    constructor
    · rintro ⟨hsame, -, -⟩
      refine ⟨hrecord.mp hsame, fun hloads => ?_, fun h => absurd hempty (h hraises)⟩
      cases hfile : w.design_file pack.manifest.design_path <;> rw [hfile] at hraises hloads <;>
        first | exact hraises.elim | exact hloads.elim
    · exact fun h => ⟨hrecord.mpr h.checksum, hhash, hrequires⟩
  · obtain ⟨hsame, hinput, hmark, hevidence, hstate, hraises⟩ := captureFinalStateHash_ok hok
    obtain ⟨hsame', hinput', hstate', hmark'⟩ := @populate_captureKicadOracleMetadata w m pack.results
    have hbut := (sameBut_recorded.trans hsame).trans hsame'
    have hbut' : SameBut pack.manifest
        { (m.captureKicadOracleMetadata w).populate w pack.results with artifacts := artifacts } :=
      ⟨hbut.name, hbut.design_path, hbut.references, hbut.architecture_evidence, hbut.fields⟩
    rw [hafter, hbut'.kept_eq_iff]
    dsimp only
    rw [hinput', hinput, hrecord, hstate']
    rw [hhash, hpath] at hstate
    rw [hhash, hpath] at hraises
    rw [hmark, hrequires, hevidence, horacle] at hmark'
    rw [hstate, hmark']
    constructor
    · rintro ⟨hchecksum, hloads, hfound⟩
      exact ⟨hchecksum, hloads, fun _ => hfound⟩
    · exact fun h => ⟨h.checksum, h.state_hash, h.oracle hraises⟩

/-! ## The identity is stable -/

variable (w digest jsonCopy)

/-- Two packs that agree have one identity, and a bundle does not change it: it is the one in the archive and the one
of the pack afterwards. -/
def Stable (pack pack' : Pack) : Prop :=
  pack.stableId digest jsonCopy = pack'.stableId digest jsonCopy ∧
    (pack.bundle w digest jsonCopy).2.stableId digest jsonCopy = pack.stableId digest jsonCopy ∧
    ∀ archive, (pack.bundle w digest jsonCopy).1 = .ok archive → archive.stable_id = pack.stableId digest jsonCopy

variable {w digest jsonCopy}

theorem results_bundle (pack : Pack) : (pack.bundle w digest jsonCopy).2.results = pack.results := by
  rcases @bundle_cases w digest jsonCopy pack with ⟨_, -, -, hafter⟩ | ⟨_, _, -, hafter⟩
  · rw [hafter]
  · rw [hafter]

/-- **When the identity is stable**: nothing that differs is kept, and nothing that is kept is filled. -/
theorem stable_iff {timestamp : String → Prop} {pack pack' : Pack} (h : Agree timestamp pack pack')
    (hdigest : NoCollision digest jsonCopy pack pack')
    (hbundle : NoCollision digest jsonCopy (pack.bundle w digest jsonCopy).2 pack) :
    Stable w digest jsonCopy pack pack' ↔ KeptSame pack pack' ∧ Captured w pack.manifest := by
  have hkept : ∀ m m' : Manifest, m.stablePayload.get? = m'.stablePayload.get? ↔ m.kept = m'.kept := by
    intro m m'
    rw [funext (get?_stablePayload m), funext (get?_stablePayload m')]
  have hcaptured := @kept_bundle_iff w digest jsonCopy pack
  unfold Stable
  rw [stableId_eq_iff h hdigest]
  refine and_congr_right fun _ => ?_
  constructor
  · rintro ⟨hafter, -⟩
    exact hcaptured.mp ((hkept _ _).mp (hbundle hafter).1)
  · intro hfields
    have hafter : (pack.bundle w digest jsonCopy).2.stableId digest jsonCopy = pack.stableId digest jsonCopy := by
      unfold Pack.stableId
      rw [(hkept _ _).mpr (hcaptured.mpr hfields), results_bundle]
    exact ⟨hafter, fun archive harchive => (stable_id_bundle harchive).trans hafter⟩

/-! ## Small packs -/

/-- A text instead of a digest, for where few fields count. -/
def textDigest (payload : String → Option PyValue) (results : List PyValue) : String :=
  let kept := ["design_path", "input_record", "final_state_hash", "requires_kicad_oracle"].map fun key =>
    (payload key).getD .none
  (jsonText
    { str := fun _ => ""
      repr := fun
        | .float q => s!"{q.num}/{q.den}"
        | _ => "" } (.list (kept ++ results))).getD ""

/-- No file is there. -/
def emptyWorld : World where
  design_file := fun _ => .absent
  reference := fun _ => none
  environment := { zaptrace_version := "1.0" }
  oracle := [.str "skipped"]
  infer_kind := fun _ => "other"
  fixed0 := fun _ => ""
  evaluate := fun _ _ => .none
  report_json := fun _ _ => .ok ""

/-- A pack of a directory, with a result that took some time. -/
def drcPack (directory : String) (requires_kicad_oracle : Bool) (duration_ms : ℚ) : Pack where
  manifest :=
    { name := "board"
      design_path := directory ++ "/design.yaml"
      requires_kicad_oracle := requires_kicad_oracle
      autonomous_signoff := .none
      fields := .empty
      others := fun _ hkey => absurd hkey List.not_mem_nil }
  results :=
    [{ name := "drc", category := "drc", severity := "error", status := "pass", message := "0 DRC violations found"
       duration_ms := duration_ms }]

theorem agree_drcPack {directory directory' : String} (h : SamePath (directory ++ "/design.yaml")
    (directory' ++ "/design.yaml")) (required : Bool) (duration_ms duration_ms' : ℚ) :
    Agree (fun _ => False) (drcPack directory required duration_ms) (drcPack directory' required duration_ms') where
  name := rfl
  design_path := h
  references := .nil
  input_record := rfl
  filename := .inl rfl
  requires_kicad_oracle := rfl
  architecture_evidence := rfl
  final_state_hash := rfl
  fields := fun _ => .none
  results := .cons rfl .nil

/-- Two runs of one check that take 12 ms and 18 ms have different identities, and a bundle changes each. -/
theorem not_stable_drcPack :
    Agree (fun _ => False) (drcPack "/home" false 12) (drcPack "/home" false 18) ∧
      (drcPack "/home" false 12).stableId textDigest id ≠ (drcPack "/home" false 18).stableId textDigest id ∧
      ((drcPack "/home" false 12).bundle emptyWorld textDigest id).2.stableId textDigest id ≠
        (drcPack "/home" false 12).stableId textDigest id := by
  refine ⟨agree_drcPack (.inl rfl) false 12 18, ?_, ?_⟩
  · decide +kernel
  · decide

/-- A pack that requires evidence for the external tool, in two directories, with durations that are rounded off. -/
theorem stable_drcPack : Stable emptyWorld textDigest id (drcPack "/home" true 12) (drcPack "/tmp" true (1201 / 100)) := by
  have hagree : Agree (fun _ => False) (drcPack "/home" true 12) (drcPack "/tmp" true (1201 / 100)) :=
    agree_drcPack (.inr (by decide)) true 12 (1201 / 100)
  have hsame : KeptSame (drcPack "/home" true 12) (drcPack "/tmp" true (1201 / 100)) :=
    ⟨rfl, fun _ _ => rfl, .cons (by with_unfolding_all decide) .nil⟩
  have hcaptured : Captured emptyWorld (drcPack "/home" true 12).manifest :=
    ⟨False.elim, False.elim, fun _ _ => rfl⟩
  have hkept := (kept_eq_iff hagree).mpr ⟨hsame.filename, hsame.fields⟩
  have hbundle := (@kept_bundle_iff emptyWorld textDigest id (drcPack "/home" true 12)).mpr hcaptured
  refine (stable_iff hagree (fun _ => ⟨?_, (map_toDict_eq_iff hagree.results).mpr hsame.durations⟩)
    fun _ => ⟨?_, ?_⟩).mpr ⟨hsame, hcaptured⟩
  · rw [funext (get?_stablePayload _), funext (get?_stablePayload _), hkept]
  · rw [funext (get?_stablePayload _), funext (get?_stablePayload _), hbundle]
  · rw [results_bundle]

end ZapTrace.ProofPack
