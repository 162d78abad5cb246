import Mathlib.Data.List.Sort
import Mathlib.Data.String.Basic
import ZapTrace.Algo.GridRouter
import ZapTrace.Library.PyValue

/-!
# The identity of a proof pack

The identity of a pack is the digest of its manifest and its results. It is to be the same for two runs on one design
and one manifest, so fields that depend on the run are left out of the manifest, and two fields with paths are reduced
to the names of files. The list of the fields that are left out is written by hand.

The digest of a JSON text with sorted keys is a parameter: it depends on what the payload has under each key. What
`json.loads(json.dumps(details))` makes of details is another.

## Main results

* `get?_stablePayload`: the fields that count
* `stableId_eq_iff`: when two packs that agree have one identity
-/

namespace ZapTrace.ProofPack

open Dict List

/-! ## Paths -/

def pathParts (path : String) : List (List Char) :=
  (path.toList.splitOn '/').filter fun part => part ≠ [] ∧ part ≠ ['.']

/-- `Path(path).name` -/
def pathName (path : String) : String := .ofList ((pathParts path).getLast?.getD [])

def IsAbsolute (path : String) : Prop := path.toList.head? = some '/'

instance (path : String) : Decidable (IsAbsolute path) := inferInstanceAs (Decidable (_ = _))

/-- Two paths are the same, or are in different absolute directories. -/
def SamePath (path path' : String) : Prop :=
  path = path' ∨ (IsAbsolute path ∧ IsAbsolute path' ∧ pathName path = pathName path')

theorem SamePath.pathName_eq {path path' : String} (h : SamePath path path') : pathName path = pathName path' := by
  rcases h with rfl | ⟨-, -, hname⟩
  · rfl
  · exact hname

/-! ## Packs -/

structure InputRecord where
  source_type : String := "file"
  filename : String := ""
  checksum_sha256 : Option String := none
  normalized_intent_checksum_sha256 : Option String := none

/-- The environment, with the fields other than the version by name. -/
structure EnvironmentRecord where
  zaptrace_version : String := ""
  fields : List (PyValue × PyValue) := []

/-- The evidence for the architecture, with the fields other than the digest by name. -/
structure ArchitectureProofEvidence where
  artifact_sha256 : String
  fields : List (PyValue × PyValue) := []

structure ArtifactRecord where
  path : String
  kind : String
  sha256 : Option String := none
  size_bytes : ℕ := 0

structure CheckRecord where
  name : String
  source : String := "zaptrace"
  status : String
  severity : String := "error"
  summary : String := ""

/-- The fields that the identity or the bundle looks into. -/
def ownKeys : List String :=
  ["name", "design_path", "references", "input_record", "environment", "artifacts", "check_records", "kicad_oracle",
    "requires_kicad_oracle", "architecture_evidence", "autonomous_signoff", "final_state_hash"]

/-- The manifest of a pack. The fields that neither the identity nor the bundle looks into are values by name. -/
structure Manifest where
  name : String
  design_path : String
  references : Dict String String := .empty
  input_record : InputRecord := {}
  environment : EnvironmentRecord := {}
  artifacts : List ArtifactRecord := []
  check_records : List CheckRecord := []
  kicad_oracle : List PyValue := []
  requires_kicad_oracle : Bool := false
  architecture_evidence : Option ArchitectureProofEvidence := none
  autonomous_signoff : PyValue
  final_state_hash : String := ""
  fields : Dict String PyValue
  others : ∀ key ∈ fields.keys, key ∉ ownKeys

/-- A result, with its check by name, category and severity. -/
structure ResultRecord where
  name : String
  category : String
  severity : String
  status : String
  message : String
  details : Option PyValue := none
  duration_ms : ℚ

structure Pack where
  manifest : Manifest
  results : List ResultRecord

/-! ## Dumps -/

open PyValue (str)

def optionalText : Option String → PyValue
  | none => .none
  | some text => str text

def InputRecord.dump (record : InputRecord) : PyValue :=
  .dict [(str "source_type", str record.source_type), (str "filename", str record.filename),
    (str "checksum_sha256", optionalText record.checksum_sha256),
    (str "normalized_intent_checksum_sha256", optionalText record.normalized_intent_checksum_sha256)]

def EnvironmentRecord.dump (record : EnvironmentRecord) : PyValue :=
  .dict ((str "zaptrace_version", str record.zaptrace_version) :: record.fields)

def ArchitectureProofEvidence.dump (evidence : ArchitectureProofEvidence) : PyValue :=
  .dict ((str "artifact_sha256", str evidence.artifact_sha256) :: evidence.fields)

def ArtifactRecord.dump (record : ArtifactRecord) : PyValue :=
  .dict [(str "path", str record.path), (str "kind", str record.kind), (str "sha256", optionalText record.sha256),
    (str "size_bytes", .int record.size_bytes)]

def CheckRecord.dump (record : CheckRecord) : PyValue :=
  .dict [(str "name", str record.name), (str "source", str record.source), (str "status", str record.status),
    (str "severity", str record.severity), (str "summary", str record.summary), (str "details_path", .none)]

/-- The items of a dictionary by their keys. -/
def sortedItems (d : Dict String String) : List (String × String) :=
  d.items.insertionSort fun item item' => item.1 ≤ item'.1

/-- `manifest.model_dump(mode="json")` -/
def Manifest.dump (m : Manifest) : Dict String PyValue :=
  (((((((((((m.fields.set "name" (str m.name)).set "design_path" (str m.design_path)).set "references"
    (.dict (m.references.items.map fun item => (str item.1, str item.2)))).set "input_record"
    m.input_record.dump).set "environment" m.environment.dump).set "artifacts"
    (.list (m.artifacts.map ArtifactRecord.dump))).set "check_records"
    (.list (m.check_records.map CheckRecord.dump))).set "kicad_oracle" (.list m.kicad_oracle)).set
    "requires_kicad_oracle" (.bool m.requires_kicad_oracle)).set "architecture_evidence"
    ((m.architecture_evidence.map ArchitectureProofEvidence.dump).getD .none)).set "autonomous_signoff"
    m.autonomous_signoff).set "final_state_hash" (str m.final_state_hash)

/-- The fields that depend on the run. -/
def runtimeKeys : List String :=
  ["environment", "artifacts", "check_records", "kicad_oracle", "bom_provenance", "component_selection",
    "manufacturing_evidence", "manufacturing_exports", "requirements_coverage", "assumptions_evidence",
    "verify_repair", "simulation_signoff", "autonomous_signoff"]

/-- `_stable_manifest_payload` -/
def Manifest.stablePayload (m : Manifest) : Dict String PyValue :=
  let data := m.dump
  let architecture_evidence := data.get? "architecture_evidence"
  let data := data.erase "architecture_evidence"
  let data :=
    match architecture_evidence with
    | none => data
    | some .none => data
    | some evidence =>
      data.set "architecture_evidence"
        (.dict [(str "artifact_sha256", (evidence.getItem "artifact_sha256").getD .none)])
  let data := runtimeKeys.foldl erase data
  let data := data.set "design_path" (str (pathName m.design_path))
  data.set "references" (.dict ((sortedItems m.references).map fun item => (str item.1, str (pathName item.2))))

/-! ## The identity -/

variable (digest : (String → Option PyValue) → List PyValue → String) (jsonCopy : PyValue → PyValue)

/-- `round(x, 1)` -/
def round1 (x : ℚ) : ℚ := (pyRound (x * 10) : ℚ) / 10

def ResultRecord.toDict (result : ResultRecord) : PyValue :=
  .dict ([(str "name", str result.name), (str "category", str result.category), (str "status", str result.status),
      (str "message", str result.message), (str "duration_ms", .float (round1 result.duration_ms))] ++
    match result.details with
    | none => []
    | some extra => [(str "details", jsonCopy extra)])

def Pack.stableId (pack : Pack) : String :=
  digest pack.manifest.stablePayload.get? (pack.results.map (ResultRecord.toDict jsonCopy))

/-! ## The fields that count -/

theorem get?_foldl_erase (keys : List String) (data : Dict String PyValue) (key : String) :
    (keys.foldl erase data).get? key = if key ∈ keys then none else data.get? key := by
  induction keys generalizing data with
  | nil => simp
  | cons first keys ih =>
    rw [foldl_cons, ih, get?_erase]
    by_cases hfirst : key = first
    · simp [hfirst]
    · simp [hfirst]

/-- What the identity keeps under a key. -/
def Manifest.kept (m : Manifest) (key : String) : Option PyValue :=
  if key = "references" then
    some (.dict ((sortedItems m.references).map fun item => (str item.1, str (pathName item.2))))
  else if key = "design_path" then some (str (pathName m.design_path))
  else if key ∈ runtimeKeys then none
  else if key = "architecture_evidence" then
    m.architecture_evidence.map fun evidence => .dict [(str "artifact_sha256", str evidence.artifact_sha256)]
  else if key = "final_state_hash" then some (str m.final_state_hash)
  else if key = "requires_kicad_oracle" then some (.bool m.requires_kicad_oracle)
  else if key = "input_record" then some m.input_record.dump
  else if key = "name" then some (str m.name)
  else m.fields.get? key

theorem get?_dump_of_kept (m : Manifest) {key : String} (hreferences : key ≠ "references")
    (hpath : key ≠ "design_path") (hruntime : key ∉ runtimeKeys) (harchitecture : key ≠ "architecture_evidence") :
    m.dump.get? key = m.kept key := by
  have hne : ∀ runtime ∈ runtimeKeys, key ≠ runtime := fun runtime hmem heq => hruntime (heq ▸ hmem)
  have henvironment := hne "environment" (by decide)
  have hartifacts := hne "artifacts" (by decide)
  have hrecords := hne "check_records" (by decide)
  have horacle := hne "kicad_oracle" (by decide)
  have hsignoff := hne "autonomous_signoff" (by decide)
  unfold Manifest.kept
  rw [if_neg hreferences, if_neg hpath, if_neg hruntime, if_neg harchitecture]
  simp only [Manifest.dump, get?_set, if_neg hreferences, if_neg hpath, if_neg harchitecture,
    if_neg henvironment, if_neg hartifacts, if_neg hrecords, if_neg horacle, if_neg hsignoff]

/-- **The fields that count**: a digest of the architecture, two fields reduced to names, and all that are not left
out. -/
theorem get?_stablePayload (m : Manifest) (key : String) : m.stablePayload.get? key = m.kept key := by
  have hdump : m.dump.get? "architecture_evidence" =
      some ((m.architecture_evidence.map ArchitectureProofEvidence.dump).getD .none) := by
    unfold Manifest.dump
    simp only [get?_set]
    rfl
  -- the evidence for the architecture is taken out, and put back as its digest
  obtain ⟨data, hpayload, hdata⟩ : ∃ data : Dict String PyValue,
      m.stablePayload = ((runtimeKeys.foldl erase data).set "design_path" (str (pathName m.design_path))).set
        "references" (.dict ((sortedItems m.references).map fun item => (str item.1, str (pathName item.2)))) ∧
      ∀ key, data.get? key = if key = "architecture_evidence" then
        m.architecture_evidence.map fun evidence => .dict [(str "artifact_sha256", str evidence.artifact_sha256)]
        else m.dump.get? key := by
    unfold Manifest.stablePayload
    dsimp only
    rw [hdump]
    cases hevidence : m.architecture_evidence with
    | none =>
      refine ⟨_, rfl, fun key => ?_⟩
      show (m.dump.erase "architecture_evidence").get? key = _
      rw [get?_erase]
      rfl
    | some evidence =>
      refine ⟨_, rfl, fun key => ?_⟩
      show ((m.dump.erase "architecture_evidence").set "architecture_evidence" _).get? key = _
      rw [get?_set, get?_erase]
      by_cases hkey : key = "architecture_evidence"
      · rw [if_pos hkey, if_pos hkey]
        rfl
      · rw [if_neg hkey, if_neg hkey, if_neg hkey]
  rw [hpayload, get?_set, get?_set, get?_foldl_erase, hdata]
  by_cases hreferences : key = "references"
  · rw [if_pos hreferences, Manifest.kept, if_pos hreferences]
  · by_cases hpath : key = "design_path"
    · rw [if_neg hreferences, if_pos hpath, Manifest.kept, if_neg hreferences, if_pos hpath]
    · by_cases hruntime : key ∈ runtimeKeys
      · rw [if_neg hreferences, if_neg hpath, if_pos hruntime, Manifest.kept, if_neg hreferences, if_neg hpath,
          if_pos hruntime]
      · by_cases harchitecture : key = "architecture_evidence"
        · rw [if_neg hreferences, if_neg hpath, if_neg hruntime, if_pos harchitecture, Manifest.kept,
            if_neg hreferences, if_neg hpath, if_neg hruntime, if_pos harchitecture]
        · rw [if_neg hreferences, if_neg hpath, if_neg hruntime, if_neg harchitecture]
          exact get?_dump_of_kept m hreferences hpath hruntime harchitecture

/-! ## Packs that agree -/

/-- Two values agree except for timestamps and absolute directories in them. -/
inductive AgreeValue (timestamp : String → Prop) : PyValue → PyValue → Prop
  | refl (v : PyValue) : AgreeValue timestamp v v
  | path {path path' : String} : SamePath path path' → AgreeValue timestamp (str path) (str path')
  | timestamp {time time' : String} : timestamp time → timestamp time' → AgreeValue timestamp (str time) (str time')
  | list {xs ys : List PyValue} : List.Forall₂ (AgreeValue timestamp) xs ys →
      AgreeValue timestamp (.list xs) (.list ys)
  | dict {xs ys : List (PyValue × PyValue)} : xs.map Prod.fst = ys.map Prod.fst →
      List.Forall₂ (AgreeValue timestamp) (xs.map Prod.snd) (ys.map Prod.snd) →
      AgreeValue timestamp (.dict xs) (.dict ys)

/-- Two packs agree except for timestamps, absolute directories and durations, and except for what their manifests
have in the fields that are left out. -/
structure Agree (timestamp : String → Prop) (pack pack' : Pack) : Prop where
  name : pack.manifest.name = pack'.manifest.name
  design_path : SamePath pack.manifest.design_path pack'.manifest.design_path
  references : List.Forall₂ (fun item item' => item.1 = item'.1 ∧ SamePath item.2 item'.2)
    (sortedItems pack.manifest.references) (sortedItems pack'.manifest.references)
  input_record : { pack.manifest.input_record with filename := pack'.manifest.input_record.filename } =
    pack'.manifest.input_record
  filename : SamePath pack.manifest.input_record.filename pack'.manifest.input_record.filename
  requires_kicad_oracle : pack.manifest.requires_kicad_oracle = pack'.manifest.requires_kicad_oracle
  architecture_evidence : pack.manifest.architecture_evidence.map ArchitectureProofEvidence.artifact_sha256 =
    pack'.manifest.architecture_evidence.map ArchitectureProofEvidence.artifact_sha256
  final_state_hash : pack.manifest.final_state_hash = pack'.manifest.final_state_hash
  fields : ∀ key, Option.Rel (AgreeValue timestamp) (pack.manifest.fields.get? key) (pack'.manifest.fields.get? key)
  results : List.Forall₂ (fun result result' => { result with duration_ms := result'.duration_ms } = result')
    pack.results pack'.results

/-- No timestamp and no path differs in a field that is not left out, and durations differ by less than what is
rounded off. -/
structure KeptSame (pack pack' : Pack) : Prop where
  filename : pack.manifest.input_record.filename = pack'.manifest.input_record.filename
  fields : ∀ key ∉ runtimeKeys, pack.manifest.fields.get? key = pack'.manifest.fields.get? key
  durations : List.Forall₂ (fun result result' => round1 result.duration_ms = round1 result'.duration_ms)
    pack.results pack'.results

/-- The digests of two payloads are the same only when the payloads are. -/
def NoCollision (pack pack' : Pack) : Prop :=
  pack.stableId digest jsonCopy = pack'.stableId digest jsonCopy →
    pack.manifest.stablePayload.get? = pack'.manifest.stablePayload.get? ∧
      pack.results.map (ResultRecord.toDict jsonCopy) = pack'.results.map (ResultRecord.toDict jsonCopy)

variable {digest jsonCopy}

theorem toDict_eq_iff {result result' : ResultRecord}
    (h : { result with duration_ms := result'.duration_ms } = result') :
    result.toDict jsonCopy = result'.toDict jsonCopy ↔ round1 result.duration_ms = round1 result'.duration_ms := by
  obtain ⟨name, category, severity, status, message, details, duration_ms⟩ := result
  obtain ⟨name', category', severity', status', message', details', duration_ms'⟩ := result'
  cases h
  unfold ResultRecord.toDict
  simp

theorem map_toDict_eq_iff {results results' : List ResultRecord}
    (h : List.Forall₂ (fun result result' => { result with duration_ms := result'.duration_ms } = result')
      results results') :
    results.map (ResultRecord.toDict jsonCopy) = results'.map (ResultRecord.toDict jsonCopy) ↔
      List.Forall₂ (fun result result' => round1 result.duration_ms = round1 result'.duration_ms)
        results results' := by
  induction h with
  | nil => simp
  | cons hfirst _ ih =>
    rw [map_cons, map_cons, cons_eq_cons, forall₂_cons, ih, toDict_eq_iff hfirst]

/-- What the identity keeps of two manifests that agree is the same but for two things. -/
theorem kept_eq_iff {timestamp : String → Prop} {pack pack' : Pack} (h : Agree timestamp pack pack') :
    pack.manifest.kept = pack'.manifest.kept ↔
      pack.manifest.input_record.filename = pack'.manifest.input_record.filename ∧
        ∀ key ∉ runtimeKeys, pack.manifest.fields.get? key = pack'.manifest.fields.get? key := by
  have hreferences : (sortedItems pack.manifest.references).map (fun item => (str item.1, str (pathName item.2))) =
      (sortedItems pack'.manifest.references).map (fun item => (str item.1, str (pathName item.2))) := by
    have hitems := h.references
    generalize sortedItems pack.manifest.references = items at hitems
    generalize sortedItems pack'.manifest.references = items' at hitems
    induction hitems with
    | nil => rfl
    | cons hfirst _ ih =>
      rw [map_cons, map_cons, ih, hfirst.1, hfirst.2.pathName_eq]
  have harchitecture : (pack.manifest.architecture_evidence.map fun evidence =>
        PyValue.dict [(str "artifact_sha256", str evidence.artifact_sha256)]) =
      pack'.manifest.architecture_evidence.map fun evidence =>
        PyValue.dict [(str "artifact_sha256", str evidence.artifact_sha256)] := by
    have hsha := congrArg (Option.map fun sha => PyValue.dict [(str "artifact_sha256", str sha)])
      h.architecture_evidence
    rw [Option.map_map, Option.map_map] at hsha
    exact hsha
  have hown : ∀ m : Manifest, ∀ key ∈ ownKeys, m.fields.get? key = none := by
    intro m key hkey
    exact not_mem_keys_iff.mp fun hmem => m.others key hmem hkey
  constructor
  · intro heq
    constructor
    · -- the record of the input is kept whole
      have hrecord := congrFun heq "input_record"
      have hdump : some pack.manifest.input_record.dump = some pack'.manifest.input_record.dump := hrecord
      simp only [InputRecord.dump, Option.some.injEq, PyValue.dict.injEq, cons.injEq, Prod.mk.injEq,
        PyValue.str.injEq, true_and] at hdump
      exact hdump.2.1
    · intro key hruntime
      by_cases hkey : key ∈ ownKeys
      · rw [hown _ key hkey, hown _ key hkey]
      · have hne : ∀ own ∈ ownKeys, key ≠ own := fun own hown heq => hkey (heq ▸ hown)
        have hkept : ∀ m : Manifest, m.kept key = m.fields.get? key := by
          intro m
          unfold Manifest.kept
          rw [if_neg (hne _ (by decide)), if_neg (hne _ (by decide)), if_neg hruntime, if_neg (hne _ (by decide)),
            if_neg (hne _ (by decide)), if_neg (hne _ (by decide)), if_neg (hne _ (by decide)),
            if_neg (hne _ (by decide))]
        rw [← hkept, ← hkept, heq]
  · rintro ⟨hfilename, hfields⟩
    have hrecord : pack.manifest.input_record = pack'.manifest.input_record := by
      rw [← h.input_record, ← hfilename]
    ext1 key
    unfold Manifest.kept
    rw [hreferences, h.design_path.pathName_eq, harchitecture, h.final_state_hash, h.requires_kicad_oracle, hrecord,
      h.name]
    by_cases hruntime : key ∈ runtimeKeys
    · rw [if_pos hruntime, if_pos hruntime]
    · rw [hfields key hruntime]

/-- **When two packs that agree have one identity**: nothing that differs is kept. -/
theorem stableId_eq_iff {timestamp : String → Prop} {pack pack' : Pack} (h : Agree timestamp pack pack')
    (hdigest : NoCollision digest jsonCopy pack pack') :
    pack.stableId digest jsonCopy = pack'.stableId digest jsonCopy ↔ KeptSame pack pack' := by
  have hpayload : pack.manifest.stablePayload.get? = pack'.manifest.stablePayload.get? ↔
      pack.manifest.kept = pack'.manifest.kept := by
    have hkept : ∀ m : Manifest, m.stablePayload.get? = m.kept := fun m => funext (get?_stablePayload m)
    rw [hkept, hkept]
  constructor
  · intro hid
    obtain ⟨hmanifest, hresults⟩ := hdigest hid
    obtain ⟨hfilename, hfields⟩ := (kept_eq_iff h).mp (hpayload.mp hmanifest)
    exact ⟨hfilename, hfields, (map_toDict_eq_iff h.results).mp hresults⟩
  · intro hsame
    have hmanifest := hpayload.mpr ((kept_eq_iff h).mpr ⟨hsame.filename, hsame.fields⟩)
    have hresults := (@map_toDict_eq_iff jsonCopy _ _ h.results).mpr hsame.durations
    unfold Pack.stableId
    rw [hmanifest, hresults]

end ZapTrace.ProofPack
