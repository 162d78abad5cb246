import ZapTrace.Eda.EasyEdaStd
import ZapTrace.Library.Lists
import ZapTrace.Library.Raising

/-!
# What becomes of the entries of an EasyEDA Standard document

The reader is to map each entry of a document to the project, or to keep a record of it, and the conversion to a design
is to drop nothing. The reader keeps records of components and nets that it cannot read, but not of pins, and it reads
one section only. The conversion keeps the last of several components or nets with one identifier, and leaves out pins
without a component or a number.

## Main results

* `readData_ok`: what the reader makes of a document
* `mapsAll_iff`: when every entry is mapped or recorded, and nothing is dropped
-/

namespace ZapTrace.EasyEdaStd

open Account List
open Schema (Design)
open PyValue (str getItem)

variable (rt : Runtime)

/-! ## Entries -/

def partEntries (part : PyValue) (key : String) : List PyValue := (get part key (.list [])).elements.getD []

def documentEntries (data : PyValue) (key : String) : List PyValue :=
  (sections data).flatMap fun part => partEntries part key

/-- The pin entries of a net. A value in the place of a list is one entry. -/
def pinEntries (raw : PyValue) : List PyValue :=
  match get raw "pins" (.list []) with
  | .list xs => xs
  | .none => []
  | v => [v]

def IsObject (raw : PyValue) : Prop := ∃ items, raw = .dict items

def field (raw : PyValue) (key : String) : String := rt.text (get raw key (str ""))

/-- The component has the fields of the entry. -/
structure MapsComponent (raw : PyValue) (c : EasyEdaStdComponent) : Prop where
  object : IsObject raw
  id : c.id = field rt raw "id"
  id_ne : c.id ≠ ""
  ref : c.ref = field rt raw "ref"
  value : c.value = field rt raw "value"
  package : c.package = rt.text (get raw "packageName" (get raw "package" (str "")))
  x : pyFloat rt (get raw "x" (.float 0)) = .ok c.x
  y : pyFloat rt (get raw "y" (.float 0)) = .ok c.y

/-- The pin has the fields of the entry. -/
structure MapsPin (raw : PyValue) (p : EasyEdaStdPin) : Prop where
  object : IsObject raw
  componentId : p.componentId = field rt raw "componentId"
  pinNumber : p.pinNumber = field rt raw "pinNumber"

/-- The net has the fields and all pins of the entry. There are no records of pins. -/
structure MapsNet (raw : PyValue) (n : EasyEdaStdNet) : Prop where
  object : IsObject raw
  id : n.id = field rt raw "id"
  id_ne : n.id ≠ ""
  name : n.name = field rt raw "name"
  name_ne : n.name ≠ ""
  pins : List.Forall₂ (MapsPin rt) (pinEntries raw) n.pins

/-- The record has the text of the entry. -/
def Records (raw : PyValue) (record : EasyEdaStdDegradationRecord) : Prop :=
  ∃ message, record.raw = message ++ take200 (rt.text raw)

def recordsOf (project : EasyEdaStdProject) (document : String) : List EasyEdaStdDegradationRecord :=
  project.degradation.filter fun record => record.document = document

/-- Each component and net entry is mapped or recorded. -/
structure Mapped (data : PyValue) (project : EasyEdaStdProject) : Prop where
  components : Accounted (MapsComponent rt) (Records rt) (documentEntries data "components") project.components
    (recordsOf project "schematic.components")
  nets : Accounted (MapsNet rt) (Records rt) (documentEntries data "nets") project.nets
    (recordsOf project "schematic.nets")

/-- The net of the design has a node for each pin of the net. -/
def KeepsNet (n : EasyEdaStdNet) (net : Schema.Net) : Prop :=
  net.id = n.id ∧ net.name.val = n.name ∧ net.nodes = n.pins.map fun p => ⟨p.componentId, p.pinNumber⟩

/-- The design has all components, nets and pins of the project. -/
structure Converted (project : EasyEdaStdProject) (design : Design) : Prop where
  components : design.components.values = project.components.map canonicalComponent
  nets : List.Forall₂ KeepsNet project.nets design.nets.values

/-- The document is read, every entry is mapped or recorded, and a conversion that does not refuse the project drops
nothing. -/
def MapsAll (data : PyValue) (name : String) : Prop :=
  ∃ project, readData rt data = .ok project ∧ Mapped rt data project ∧
    ∀ design, easyedaStdProjectToDesign project name = some design → Converted project design

/-! ## The documents that are mapped -/

/-- The entry can be read as a component. -/
def IsComponent (raw : PyValue) : Prop := ∃ c, MapsComponent rt raw c

/-- A coordinate of the component is a whole number past the range of floats. -/
def Overflows (raw : PyValue) : Prop :=
  IsObject raw ∧ field rt raw "id" ≠ "" ∧
    (pyFloat rt (get raw "x" (.float 0)) = .error .overflow ∨
      (∃ x, pyFloat rt (get raw "x" (.float 0)) = .ok x) ∧ pyFloat rt (get raw "y" (.float 0)) = .error .overflow)

/-- The entry can be read as a net. -/
def IsNet (raw : PyValue) : Prop := IsObject raw ∧ field rt raw "id" ≠ "" ∧ field rt raw "name" ≠ ""

/-- The pins of a net entry are a list of objects, or there are none. -/
def PinsAreObjects (raw : PyValue) : Prop :=
  match get raw "pins" (.list []) with
  | .list xs => ∀ p ∈ xs, IsObject p
  | .none => True
  | _ => False

/-- No two components and no two nets have one identifier, and each pin has a component and a number. -/
structure Convertible (components nets : List PyValue) : Prop where
  component_ids : components.Pairwise fun raw raw' =>
    IsComponent rt raw → IsComponent rt raw' → field rt raw "id" ≠ field rt raw' "id"
  net_ids : nets.Pairwise fun raw raw' => IsNet rt raw → IsNet rt raw' → field rt raw "id" ≠ field rt raw' "id"
  pins : ∀ raw ∈ nets, IsNet rt raw → ∀ p ∈ pinEntries raw,
    field rt p "componentId" ≠ "" ∧ field rt p "pinNumber" ≠ ""

/-- The parts of the section can be looped over and have no number past the range of floats, other sections have no
entries, pins are objects, and nets can be converted without a loss or are refused for a blank name. -/
structure Mappable (data : PyValue) : Prop where
  loops : ∀ key ∈ ["components", "nets", "wires", "shapes"],
    (get (extractSection data) key (.list [])).elements.isSome
  floats : ∀ raw ∈ partEntries (extractSection data) "components", ¬ Overflows rt raw
  one_section : ∀ part ∈ (sections data).tail, partEntries part "components" = [] ∧ partEntries part "nets" = []
  objects : ∀ raw ∈ partEntries (extractSection data) "nets", IsNet rt raw → PinsAreObjects raw
  converts : (∃ raw ∈ partEntries (extractSection data) "nets", IsNet rt raw ∧ pyStrip (field rt raw "name") = "") ∨
    Convertible rt (partEntries (extractSection data) "components") (partEntries (extractSection data) "nets")

variable {rt}

/-! ## One component -/
variable {raw : PyValue}

theorem not_isComponent_of_id (hid : field rt raw "id" = "") : ¬ IsComponent rt raw :=
  fun ⟨_, h⟩ => h.id_ne (h.id.trans hid)

theorem not_isComponent_of_x {error : FloatError} (hx : pyFloat rt (get raw "x" (.float 0)) = .error error) :
    ¬ IsComponent rt raw :=
  fun ⟨_, h⟩ => nomatch hx.symm.trans h.x

theorem not_isComponent_of_y {error : FloatError} (hy : pyFloat rt (get raw "y" (.float 0)) = .error error) :
    ¬ IsComponent rt raw :=
  fun ⟨_, h⟩ => nomatch hy.symm.trans h.y

/-- What becomes of an entry: a component, a record, or an error. -/
inductive ComponentOutcome (rt : Runtime) (document : String) (raw : PyValue) :
    Except ReadError (EasyEdaStdComponent ⊕ EasyEdaStdDegradationRecord) → Prop
  | mapped {c : EasyEdaStdComponent} : MapsComponent rt raw c → ComponentOutcome rt document raw (.ok (.inl c))
  | recorded {record : EasyEdaStdDegradationRecord} :
      ¬ IsComponent rt raw → ¬ Overflows rt raw → record.document = document → Records rt raw record →
        ComponentOutcome rt document raw (.ok (.inr record))
  | raised : Overflows rt raw → ComponentOutcome rt document raw (.error .overflowError)

theorem parseComponent_outcome (rt : Runtime) (document : String) (raw : PyValue) :
    ComponentOutcome rt document raw (parseComponent rt document raw) := by
  have hnone : ¬ IsObject raw → Records rt raw ⟨"NON_OBJECT_COMPONENT", document, "error", take200 (rt.text raw)⟩ →
      ComponentOutcome rt document raw
        (.ok (.inr ⟨"NON_OBJECT_COMPONENT", document, "error", take200 (rt.text raw)⟩)) := fun hobject hrecord =>
    .recorded (fun ⟨_, h⟩ => hobject h.object) (fun h => hobject h.1) rfl hrecord
  have hraw : Records rt raw ⟨"NON_OBJECT_COMPONENT", document, "error", take200 (rt.text raw)⟩ := ⟨"", by simp⟩
  cases raw with
  | dict items =>
    have hobject : IsObject (.dict items) := ⟨items, rfl⟩
    unfold parseComponent
    show ComponentOutcome rt document _ (if field rt (.dict items) "id" = "" then _ else _)
    by_cases hid : field rt (.dict items) "id" = ""
    · rw [if_pos hid]
      exact .recorded (not_isComponent_of_id hid) (fun h => h.2.1 hid) rfl ⟨"", by simp⟩
    · rw [if_neg hid]
      cases hx : pyFloat rt (get (.dict items) "x" (.float 0)) with
      | error error =>
        cases error with
        | invalid =>
          refine .recorded (not_isComponent_of_x hx) ?_ rfl ⟨_ ++ ": ", rfl⟩
          rintro ⟨-, -, hover | ⟨⟨_, hok⟩, -⟩⟩
          · cases hx.symm.trans hover
          · cases hx.symm.trans hok
        | overflow => exact .raised ⟨hobject, hid, .inl hx⟩
      | ok x =>
        cases hy : pyFloat rt (get (.dict items) "y" (.float 0)) with
        | error error =>
          cases error with
          | invalid =>
            refine .recorded (not_isComponent_of_y hy) ?_ rfl ⟨_ ++ ": ", rfl⟩
            rintro ⟨-, -, hover | ⟨-, hover⟩⟩
            · cases hx.symm.trans hover
            · cases hy.symm.trans hover
          | overflow => exact .raised ⟨hobject, hid, .inr ⟨⟨x, hx⟩, hy⟩⟩
        | ok y => exact .mapped ⟨hobject, rfl, hid, rfl, rfl, rfl, hx, hy⟩
  | _ => exact hnone nofun hraw
variable {document : String} {record : EasyEdaStdDegradationRecord}

theorem recorded_parseComponent (h : parseComponent rt document raw = .ok (.inr record)) :
    ¬ IsComponent rt raw ∧ record.document = document ∧ Records rt raw record := by
  have houtcome := parseComponent_outcome rt document raw
  rw [h] at houtcome
  cases houtcome with
  | recorded hcomponent _ hdocument hrecords => exact ⟨hcomponent, hdocument, hrecords⟩

theorem mapped_parseComponent {c : EasyEdaStdComponent} (h : parseComponent rt document raw = .ok (.inl c)) :
    MapsComponent rt raw c := by
  have houtcome := parseComponent_outcome rt document raw
  rw [h] at houtcome
  cases houtcome with
  | mapped hmaps => exact hmaps

theorem exists_parseComponent_iff : (∃ out, parseComponent rt document raw = .ok out) ↔ ¬ Overflows rt raw := by
  have houtcome := parseComponent_outcome rt document raw
  generalize parseComponent rt document raw = result at houtcome
  cases houtcome with
  | mapped hmaps =>
    refine iff_of_true ⟨_, rfl⟩ ?_
    rintro ⟨-, -, hx | ⟨-, hy⟩⟩
    · cases hx.symm.trans hmaps.x
    · cases hy.symm.trans hmaps.y
  | recorded _ hoverflows _ _ => exact iff_of_true ⟨_, rfl⟩ hoverflows
  | raised hoverflows => exact iff_of_false nofun (not_not_intro hoverflows)

/-! ## One net -/

theorem isObject_iff_parsePin : IsObject raw ↔ ∃ p, parsePin rt raw = some p := by
  cases raw with
  | dict items => exact iff_of_true ⟨items, rfl⟩ ⟨_, rfl⟩
  | _ => exact iff_of_false nofun nofun

theorem mapsPin_iff {p : EasyEdaStdPin} : MapsPin rt raw p ↔ parsePin rt raw = some p := by
  constructor
  · rintro ⟨⟨items, rfl⟩, hcomponent, hnumber⟩
    obtain ⟨componentId, pinNumber⟩ := p
    exact congrArg some (congrArg₂ EasyEdaStdPin.mk hcomponent.symm hnumber.symm)
  · intro h
    cases raw with
    | dict items =>
      obtain rfl := Option.some.inj h
      exact ⟨⟨items, rfl⟩, rfl, rfl⟩
    | _ => cases h

theorem forall₂_mapsPin_iff {xs : List PyValue} {ps : List EasyEdaStdPin} :
    List.Forall₂ (MapsPin rt) xs ps ↔ (∀ p ∈ xs, IsObject p) ∧ ps = xs.filterMap (parsePin rt) := by
  induction xs generalizing ps with
  | nil => simp [forall₂_nil_left_iff]
  | cons x xs ih =>
    rw [forall₂_cons_left_iff, forall_mem_cons]
    constructor
    · rintro ⟨p, ps, hp, hps, rfl⟩
      obtain ⟨hobjects, hrest⟩ := ih.mp hps
      refine ⟨⟨hp.object, hobjects⟩, ?_⟩
      rw [filterMap_cons_some (mapsPin_iff.mp hp), hrest]
    · rintro ⟨⟨hobject, hobjects⟩, rfl⟩
      obtain ⟨p, hp⟩ := isObject_iff_parsePin.mp hobject
      rw [filterMap_cons_some hp]
      exact ⟨p, _, mapsPin_iff.mpr hp, ih.mpr ⟨hobjects, rfl⟩, rfl⟩

theorem forall₂_parsePins_iff :
    List.Forall₂ (MapsPin rt) (pinEntries raw) (parsePins rt (get raw "pins" (.list []))) ↔ PinsAreObjects raw := by
  unfold pinEntries PinsAreObjects
  cases get raw "pins" (.list []) with
  | list xs => exact forall₂_mapsPin_iff.trans (and_iff_left rfl)
  | none => exact iff_of_true .nil trivial
  | _ => exact iff_of_false nofun id

theorem not_isNet_of_missing (h : field rt raw "id" = "" ∨ field rt raw "name" = "") : ¬ IsNet rt raw := by
  rintro ⟨-, hid, hname⟩
  exact h.elim hid hname

/-- What becomes of an entry: a net, or a record. -/
inductive NetOutcome (rt : Runtime) (document : String) (raw : PyValue) :
    EasyEdaStdNet ⊕ EasyEdaStdDegradationRecord → Prop
  | mapped {n : EasyEdaStdNet} : IsNet rt raw →
      n = ⟨field rt raw "id", field rt raw "name", parsePins rt (get raw "pins" (.list []))⟩ →
        NetOutcome rt document raw (.inl n)
  | recorded {record : EasyEdaStdDegradationRecord} : ¬ IsNet rt raw → record.document = document →
      Records rt raw record → NetOutcome rt document raw (.inr record)
variable {n : EasyEdaStdNet}

theorem MapsNet.isNet (h : MapsNet rt raw n) : IsNet rt raw :=
  ⟨h.object, h.id ▸ h.id_ne, h.name ▸ h.name_ne⟩

theorem mapsNet_iff (h : IsNet rt raw) :
    MapsNet rt raw ⟨field rt raw "id", field rt raw "name", parsePins rt (get raw "pins" (.list []))⟩ ↔
      PinsAreObjects raw :=
  ⟨fun hmaps => forall₂_parsePins_iff.mp hmaps.pins,
    fun hpins => ⟨h.1, rfl, h.2.1, rfl, h.2.2, forall₂_parsePins_iff.mpr hpins⟩⟩

theorem parseNet_outcome (rt : Runtime) (document : String) (raw : PyValue) :
    NetOutcome rt document raw (parseNet rt document raw) := by
  cases raw with
  | dict items =>
    unfold parseNet
    show NetOutcome rt document _
      (if field rt (.dict items) "id" = "" ∨ field rt (.dict items) "name" = "" then _ else _)
    by_cases hmissing : field rt (.dict items) "id" = "" ∨ field rt (.dict items) "name" = ""
    · rw [if_pos hmissing]
      exact .recorded (not_isNet_of_missing hmissing) rfl ⟨"", by simp⟩
    · rw [if_neg hmissing]
      obtain ⟨hid, hname⟩ := not_or.mp hmissing
      exact .mapped ⟨⟨items, rfl⟩, hid, hname⟩ rfl
  | _ => exact .recorded (fun h => nomatch h.1) rfl ⟨"", by simp⟩

theorem recorded_parseNet (h : parseNet rt document raw = .inr record) :
    ¬ IsNet rt raw ∧ record.document = document ∧ Records rt raw record := by
  have houtcome := parseNet_outcome rt document raw
  rw [h] at houtcome
  cases houtcome with
  | recorded hnet hdocument hrecords => exact ⟨hnet, hdocument, hrecords⟩

theorem mapped_parseNet (h : parseNet rt document raw = .inl n) :
    IsNet rt raw ∧ n = ⟨field rt raw "id", field rt raw "name", parsePins rt (get raw "pins" (.list []))⟩ := by
  have houtcome := parseNet_outcome rt document raw
  rw [h] at houtcome
  cases houtcome with
  | mapped hnet hn => exact ⟨hnet, hn⟩

/-! ## The reader -/

/-- All parts of the section can be looped over. -/
def Loops (part : PyValue) : Prop :=
  ∀ key ∈ ["components", "nets", "wires", "shapes"], (get part key (.list [])).elements.isSome

/-- What the reader makes of a section, by the outcomes of its components. -/
def sectionProject (rt : Runtime) (part : PyValue) (format_version : String) (head : List EasyEdaStdDegradationRecord)
    (outs : List (EasyEdaStdComponent ⊕ EasyEdaStdDegradationRecord)) : EasyEdaStdProject where
  components := lefts outs
  nets := lefts ((partEntries part "nets").map (parseNet rt "schematic.nets"))
  format_version := format_version
  degradation := head ++ rights outs ++ rights ((partEntries part "nets").map (parseNet rt "schematic.nets")) ++
    (partEntries part "wires").map (wireRecord rt) ++ (partEntries part "shapes").map (shapeRecord rt)

theorem entries_eq_ok_iff {part : PyValue} {key : String} {xs : List PyValue} :
    entries part key = .ok xs ↔ (get part key (.list [])).elements.isSome ∧ xs = partEntries part key := by
  unfold entries partEntries
  cases (get part key (.list [])).elements with
  | none => exact iff_of_false nofun fun h => nomatch h.1
  | some ys => exact ⟨fun h => ⟨rfl, (Except.ok.inj h).symm⟩, fun h => congrArg Except.ok h.2.symm⟩
variable {project : EasyEdaStdProject}

theorem populateProjectSection_eq_ok_iff {part : PyValue} {format_version : String}
    {head : List EasyEdaStdDegradationRecord} :
    populateProjectSection rt part format_version head = .ok project ↔
      Loops part ∧ ∃ outs,
        List.Forall₂ (fun raw out => parseComponent rt "schematic.components" raw = .ok out)
          (partEntries part "components") outs ∧ project = sectionProject rt part format_version head outs := by
  unfold populateProjectSection
  simp only [Raising.bind_eq_ok_iff, entries_eq_ok_iff, Lists.mapM_eq_ok_iff]
  constructor
  · rintro ⟨_, ⟨hcomponents, rfl⟩, outs, houts, _, ⟨hnets, rfl⟩, _, ⟨hwires, rfl⟩, _, ⟨hshapes, rfl⟩, hproject⟩
    refine ⟨?_, outs, houts, (Except.ok.inj hproject).symm⟩
    unfold Loops
    simp [hcomponents, hnets, hwires, hshapes]
  · rintro ⟨hloops, outs, houts, rfl⟩
    exact ⟨_, ⟨hloops "components" (by simp), rfl⟩, outs, houts, _, ⟨hloops "nets" (by simp), rfl⟩, _,
      ⟨hloops "wires" (by simp), rfl⟩, _, ⟨hloops "shapes" (by simp), rfl⟩, rfl⟩

theorem exists_extractSection (data : PyValue) : ∃ items, extractSection data = .dict items := by
  have hdict : ∀ part ∈ sections data, ∃ items, part = .dict items := by
    intro part hpart
    obtain ⟨key, -, hkey⟩ := mem_filterMap.mp hpart
    split at hkey
    · exact ⟨_, (Option.some.inj hkey).symm⟩
    · cases hkey
  unfold extractSection
  cases hsections : sections data with
  | nil => exact ⟨[], rfl⟩
  | cons part parts => exact hdict part (hsections ▸ mem_cons_self)

variable {data : PyValue}

theorem readData_of_empty (h : extractSection data = .dict []) :
    readData rt data =
      .ok
        { format_version := (populateProjectHead rt data).1
          degradation := (populateProjectHead rt data).2 ++
            [⟨"MISSING_SECTION", "root", "error", "No 'schematic' or 'PCB' key found"⟩] } := by
  unfold readData
  rw [h]

theorem readData_of_section (h : extractSection data ≠ .dict []) :
    readData rt data = populateProjectSection rt (extractSection data) (populateProjectHead rt data).1
      (populateProjectHead rt data).2 := by
  obtain ⟨items, hitems⟩ := exists_extractSection data
  unfold readData
  rw [hitems] at h ⊢
  cases items with
  | nil => exact absurd rfl h
  | cons _ _ => rfl

theorem loops_empty : Loops (.dict []) := fun _ _ => rfl

theorem document_head (h : record ∈ (populateProjectHead rt data).2) : record.document = "head" := by
  unfold populateProjectHead at h
  split at h
  · dsimp only at h
    split at h
    · rw [mem_singleton.mp h]
    · cases h
  · rw [mem_singleton.mp h]

theorem filter_document_eq {records : List EasyEdaStdDegradationRecord}
    (h : ∀ record ∈ records, record.document = document) :
    records.filter (fun record => record.document = document) = records :=
  filter_eq_self.mpr fun record hrecord => decide_eq_true (h record hrecord)

theorem filter_document_ne {records : List EasyEdaStdDegradationRecord} {document document' : String}
    (hne : document' ≠ document) (h : ∀ record ∈ records, record.document = document') :
    records.filter (fun record => record.document = document) = [] :=
  filter_eq_nil_iff.mpr fun record hrecord hdocument =>
    hne ((h record hrecord).symm.trans (of_decide_eq_true hdocument))

variable {outs : List (EasyEdaStdComponent ⊕ EasyEdaStdDegradationRecord)}

theorem recordsOf_sectionProject {part : PyValue} {format_version : String} {head : List EasyEdaStdDegradationRecord}
    (hhead : ∀ record ∈ head, record.document = "head")
    (houts : ∀ record ∈ rights outs, record.document = "schematic.components") :
    recordsOf (sectionProject rt part format_version head outs) "schematic.components" = rights outs ∧
      recordsOf (sectionProject rt part format_version head outs) "schematic.nets" =
        rights ((partEntries part "nets").map (parseNet rt "schematic.nets")) := by
  have hnets : ∀ record ∈ rights ((partEntries part "nets").map (parseNet rt "schematic.nets")),
      record.document = "schematic.nets" :=
    forall_mem_rights (fun _ _ h => (recorded_parseNet h).2.1)
      (forall₂_map_right_iff.mpr (forall₂_same.mpr fun _ _ => rfl))
  have hwires : ∀ record ∈ (partEntries part "wires").map (wireRecord rt), record.document = "schematic.wires" := by
    intro record hrecord
    obtain ⟨wire, -, rfl⟩ := mem_map.mp hrecord
    rfl
  have hshapes : ∀ record ∈ (partEntries part "shapes").map (shapeRecord rt),
      record.document = "schematic.shapes" := by
    intro record hrecord
    obtain ⟨shape, -, rfl⟩ := mem_map.mp hrecord
    rfl
  unfold recordsOf sectionProject
  simp only [filter_append]
  constructor
  · rw [filter_document_ne (by decide) hhead, filter_document_eq houts, filter_document_ne (by decide) hnets,
      filter_document_ne (by decide) hwires, filter_document_ne (by decide) hshapes]
    simp
  · rw [filter_document_ne (by decide) hhead, filter_document_ne (by decide) houts, filter_document_eq hnets,
      filter_document_ne (by decide) hwires, filter_document_ne (by decide) hshapes]
    simp

/-- The components, the nets and their records that the reader makes of a document. -/
structure Reads (rt : Runtime) (data : PyValue) (project : EasyEdaStdProject)
    (outs : List (EasyEdaStdComponent ⊕ EasyEdaStdDegradationRecord)) : Prop where
  outcomes : List.Forall₂ (fun raw out => parseComponent rt "schematic.components" raw = .ok out)
    (partEntries (extractSection data) "components") outs
  components : project.components = lefts outs
  nets : project.nets = lefts ((partEntries (extractSection data) "nets").map (parseNet rt "schematic.nets"))
  component_records : recordsOf project "schematic.components" = rights outs
  net_records : recordsOf project "schematic.nets" =
    rights ((partEntries (extractSection data) "nets").map (parseNet rt "schematic.nets"))

/-- **The reader** makes components, nets and records of the entries of the first section. -/
theorem readData_ok (h : readData rt data = .ok project) :
    Loops (extractSection data) ∧ ∃ outs, Reads rt data project outs := by
  by_cases hempty : extractSection data = .dict []
  · rw [readData_of_empty hempty] at h
    obtain rfl := Except.ok.inj h
    have hrecords : ∀ document : String, document ≠ "head" → document ≠ "root" →
        filter (fun record : EasyEdaStdDegradationRecord => record.document = document)
          ((populateProjectHead rt data).2 ++
            [⟨"MISSING_SECTION", "root", "error", "No 'schematic' or 'PCB' key found"⟩]) = [] := by
      intro document hhead hroot
      rw [filter_append, filter_document_ne hhead.symm fun record hrecord => document_head hrecord,
        filter_document_ne hroot.symm (by simp)]
      rfl
    rw [hempty]
    refine ⟨loops_empty, [], ?_, rfl, ?_, hrecords "schematic.components" (by decide) (by decide), ?_⟩
    · rw [hempty]
      exact .nil
    · rw [hempty]
      rfl
    · rw [hempty]
      exact hrecords "schematic.nets" (by decide) (by decide)
  · rw [readData_of_section hempty] at h
    obtain ⟨hloops, outs, houts, rfl⟩ := populateProjectSection_eq_ok_iff.mp h
    have hhead : ∀ record ∈ (populateProjectHead rt data).2, record.document = "head" := fun _ => document_head
    have hrights : ∀ record ∈ rights outs, record.document = "schematic.components" :=
      forall_mem_rights (fun _ _ h => (recorded_parseComponent h).2.1) houts
    exact ⟨hloops, outs, houts, rfl, rfl, (recordsOf_sectionProject hhead hrights).1,
      (recordsOf_sectionProject hhead hrights).2⟩

/-- The reader raises no error exactly when it can loop over the parts and no coordinate is past the range. -/
theorem exists_readData_iff :
    (∃ project, readData rt data = .ok project) ↔
      Loops (extractSection data) ∧ ∀ raw ∈ partEntries (extractSection data) "components", ¬ Overflows rt raw := by
  have houtcomes : (∃ outs, List.Forall₂ (fun raw out => parseComponent rt "schematic.components" raw = .ok out)
        (partEntries (extractSection data) "components") outs) ↔
      ∀ raw ∈ partEntries (extractSection data) "components", ¬ Overflows rt raw := by
    simp only [← Lists.mapM_eq_ok_iff, Lists.exists_mapM_iff, exists_parseComponent_iff]
  rw [← houtcomes]
  constructor
  · rintro ⟨project, h⟩
    obtain ⟨hloops, outs, hreads⟩ := readData_ok h
    exact ⟨hloops, outs, hreads.outcomes⟩
  · rintro ⟨hloops, outs, houts⟩
    by_cases hempty : extractSection data = .dict []
    · exact ⟨_, readData_of_empty hempty⟩
    · exact ⟨_, (readData_of_section hempty).trans (populateProjectSection_eq_ok_iff.mpr ⟨hloops, outs, houts, rfl⟩)⟩

/-! ## The entries of the reader -/

theorem documentEntries_eq (data : PyValue) (key : String) :
    documentEntries data key =
      partEntries (extractSection data) key ++ (sections data).tail.flatMap fun part => partEntries part key := by
  unfold documentEntries extractSection
  cases sections data with
  | nil => rfl
  | cons part parts => rfl

/-- **Every entry is mapped or recorded** exactly when other sections have none and the pins of nets are objects. -/
theorem Reads.mapped_iff (h : Reads rt data project outs) :
    Mapped rt data project ↔
      (∀ part ∈ (sections data).tail, partEntries part "components" = [] ∧ partEntries part "nets" = []) ∧
        ∀ raw ∈ partEntries (extractSection data) "nets", IsNet rt raw → PinsAreObjects raw := by
  have hcomponents : Accounted (MapsComponent rt) (Records rt) (documentEntries data "components") project.components
      (recordsOf project "schematic.components") ↔
        (sections data).tail.flatMap (fun part => partEntries part "components") = [] := by
    rw [documentEntries_eq, h.components, h.component_records,
      accounted_iff (fun raw c _ hmaps hparse => (recorded_parseComponent hparse).1 ⟨c, hmaps⟩)
        (fun _ _ hparse => (recorded_parseComponent hparse).2.2) h.outcomes]
    refine and_iff_left (h.outcomes.imp ?_)
    rintro raw out hparse c rfl
    exact mapped_parseComponent hparse
  have hnets : Accounted (MapsNet rt) (Records rt) (documentEntries data "nets") project.nets
      (recordsOf project "schematic.nets") ↔
        (sections data).tail.flatMap (fun part => partEntries part "nets") = [] ∧
          ∀ raw ∈ partEntries (extractSection data) "nets", IsNet rt raw → PinsAreObjects raw := by
    have hparses : List.Forall₂ (fun raw out => parseNet rt "schematic.nets" raw = out)
        (partEntries (extractSection data) "nets")
        ((partEntries (extractSection data) "nets").map (parseNet rt "schematic.nets")) :=
      forall₂_map_right_iff.mpr (forall₂_same.mpr fun _ _ => rfl)
    rw [documentEntries_eq, h.nets, h.net_records,
      accounted_iff (fun _ _ _ hmaps hparse => (recorded_parseNet hparse).1 (MapsNet.isNet hmaps))
        (fun _ _ hparse => (recorded_parseNet hparse).2.2) hparses]
    refine and_congr_right fun _ => Lists.forall₂_iff_of_forall₂ (fun raw out hparse => ?_) hparses
    constructor
    · intro hmaps hnet
      cases out with
      | inl n =>
        obtain ⟨-, rfl⟩ := mapped_parseNet hparse
        exact (mapsNet_iff hnet).mp (hmaps _ rfl)
      | inr record => exact absurd hnet (recorded_parseNet hparse).1
    · rintro hpins n rfl
      obtain ⟨hnet, rfl⟩ := mapped_parseNet hparse
      exact (mapsNet_iff hnet).mpr (hpins hnet)
  have hmapped : Mapped rt data project ↔ _ ∧ _ := ⟨fun h => ⟨h.components, h.nets⟩, fun h => ⟨h.1, h.2⟩⟩
  rw [hmapped, hcomponents, hnets, ← and_assoc, flatMap_eq_nil_iff, flatMap_eq_nil_iff]
  refine and_congr_left fun _ => ⟨fun h part hpart => ⟨h.1 part hpart, h.2 part hpart⟩, fun h => ?_⟩
  exact ⟨fun part hpart => (h part hpart).1, fun part hpart => (h part hpart).2⟩

/-! ## The conversion -/

theorem canonicalNet_eq_none_iff : canonicalNet n = none ↔ pyStrip n.name = "" := by
  unfold canonicalNet
  by_cases hname : pyStrip n.name = ""
  · simp [hname]
  · simp [hname]

theorem canonicalNet_eq_some {net : Schema.Net} (h : canonicalNet n = some net) :
    net.id = n.id ∧ net.name.val = n.name ∧ net.nodes = netNodes n := by
  unfold canonicalNet at h
  split at h
  · obtain rfl := Option.some.inj h
    exact ⟨rfl, rfl, rfl⟩
  · cases h

theorem netNodes_eq_iff :
    netNodes n = n.pins.map (fun p => ⟨p.componentId, p.pinNumber⟩) ↔
      ∀ p ∈ n.pins, p.componentId ≠ "" ∧ p.pinNumber ≠ "" := by
  unfold netNodes
  constructor
  · intro h p hp
    have hlength := congrArg length h
    rw [length_map, length_map, length_filter_eq_length_iff] at hlength
    exact of_decide_eq_true (hlength p hp)
  · intro h
    rw [filter_eq_self.mpr fun p hp => decide_eq_true (h p hp)]

variable {name : String}

theorem easyedaStdProjectToDesign_eq_none_iff :
    easyedaStdProjectToDesign project name = none ↔ ∃ n ∈ project.nets, pyStrip n.name = "" := by
  rw [easyedaStdProjectToDesign, Option.map_eq_none_iff, Lists.mapM_eq_none_iff]
  exact exists_congr fun n => and_congr_right fun _ => canonicalNet_eq_none_iff

theorem easyedaStdProjectToDesign_eq_some {design : Design} (h : easyedaStdProjectToDesign project name = some design) :
    design.components = Dict.indexBy Schema.Component.id (project.components.map canonicalComponent) ∧
      ∃ nets, List.Forall₂ (fun n net => canonicalNet n = some net) project.nets nets ∧
        design.nets = Dict.indexBy Schema.Net.id nets := by
  obtain ⟨nets, hnets, hdesign⟩ := Option.map_eq_some_iff.mp h
  rw [← hdesign]
  exact ⟨rfl, nets, Lists.mapM_eq_some_iff.mp hnets, rfl⟩

theorem keepsNet_iff {net : Schema.Net} (h : canonicalNet n = some net) :
    KeepsNet n net ↔ ∀ p ∈ n.pins, p.componentId ≠ "" ∧ p.pinNumber ≠ "" := by
  obtain ⟨hid, hname, hnodes⟩ := canonicalNet_eq_some h
  rw [KeepsNet, hnodes, netNodes_eq_iff]
  exact (and_iff_right hid).trans (and_iff_right hname)

theorem map_id_of_canonicalNet {ns : List EasyEdaStdNet} {nets : List Schema.Net}
    (h : List.Forall₂ (fun n net => canonicalNet n = some net) ns nets) :
    nets.map Schema.Net.id = ns.map EasyEdaStdNet.id := by
  induction h with
  | nil => rfl
  | cons hnet _ ih => rw [map_cons, map_cons, ih, (canonicalNet_eq_some hnet).1]

/-- **The conversion** drops nothing exactly when no identifier is there twice and each pin has a component and a
number. -/
theorem converted_iff {design : Design} (h : easyedaStdProjectToDesign project name = some design) :
    Converted project design ↔
      (project.components.map EasyEdaStdComponent.id).Nodup ∧ (project.nets.map EasyEdaStdNet.id).Nodup ∧
        ∀ n ∈ project.nets, ∀ p ∈ n.pins, p.componentId ≠ "" ∧ p.pinNumber ≠ "" := by
  obtain ⟨hcomponents, nets, hforall, hnets⟩ := easyedaStdProjectToDesign_eq_some h
  have hids : (project.components.map canonicalComponent).map Schema.Component.id =
      project.components.map EasyEdaStdComponent.id := by
    rw [map_map]
    rfl
  have hkeep : ∀ n net, canonicalNet n = some net →
      (KeepsNet n net ↔ ∀ p ∈ n.pins, p.componentId ≠ "" ∧ p.pinNumber ≠ "") := fun _ _ => keepsNet_iff
  have hkeeps : List.Forall₂ KeepsNet project.nets nets ↔
      ∀ n ∈ project.nets, ∀ p ∈ n.pins, p.componentId ≠ "" ∧ p.pinNumber ≠ "" :=
    Lists.forall₂_iff_of_forall₂ hkeep hforall
  rw [← map_id_of_canonicalNet hforall, ← hids, ← hkeeps]
  constructor
  · rintro ⟨hall, hnetsall⟩
    rw [hcomponents] at hall
    rw [hnets] at hnetsall
    have hnodup := Dict.length_values_indexBy_iff.mp (hnetsall.length_eq.symm.trans hforall.length_eq)
    rw [Dict.values_indexBy hnodup] at hnetsall
    exact ⟨Dict.length_values_indexBy_iff.mp (congrArg length hall), hnodup, hnetsall⟩
  · rintro ⟨hcomponent_ids, hnet_ids, hnetsall⟩
    constructor
    · rw [hcomponents, Dict.values_indexBy hcomponent_ids]
    · rw [hnets, Dict.values_indexBy hnet_ids]
      exact hnetsall

/-! ## The identifiers and pins of the entries -/

theorem Reads.component_ids_iff (h : Reads rt data project outs) :
    (project.components.map EasyEdaStdComponent.id).Nodup ↔
      (partEntries (extractSection data) "components").Pairwise fun raw raw' =>
        IsComponent rt raw → IsComponent rt raw' → field rt raw "id" ≠ field rt raw' "id" := by
  rw [h.components, List.Nodup, pairwise_map]
  refine pairwise_lefts_iff ?_ ?_ h.outcomes
  · intro raw c raw' c' hparse hparse'
    have hmaps := mapped_parseComponent hparse
    have hmaps' := mapped_parseComponent hparse'
    rw [hmaps.id, hmaps'.id]
    exact ⟨fun hne => hne ⟨c, hmaps⟩ ⟨c', hmaps'⟩, fun hne _ _ => hne⟩
  · intro raw record raw' hparse
    have hnot := (recorded_parseComponent hparse).1
    exact ⟨fun hraw => absurd hraw hnot, fun _ hraw => absurd hraw hnot⟩

theorem Reads.net_outcomes (rt : Runtime) (nets : List PyValue) :
    List.Forall₂ (fun raw out => parseNet rt "schematic.nets" raw = out) nets
      (nets.map (parseNet rt "schematic.nets")) :=
  forall₂_map_right_iff.mpr (forall₂_same.mpr fun _ _ => rfl)

theorem Reads.net_ids_iff (h : Reads rt data project outs) :
    (project.nets.map EasyEdaStdNet.id).Nodup ↔
      (partEntries (extractSection data) "nets").Pairwise fun raw raw' =>
        IsNet rt raw → IsNet rt raw' → field rt raw "id" ≠ field rt raw' "id" := by
  rw [h.nets, List.Nodup, pairwise_map]
  refine pairwise_lefts_iff ?_ ?_ (Reads.net_outcomes rt _)
  · intro raw n raw' n' hparse hparse'
    obtain ⟨hnet, rfl⟩ := mapped_parseNet hparse
    obtain ⟨hnet', rfl⟩ := mapped_parseNet hparse'
    exact ⟨fun hne => hne hnet hnet', fun hne _ _ => hne⟩
  · intro raw record raw' hparse
    have hnot := (recorded_parseNet hparse).1
    exact ⟨fun hraw => absurd hraw hnot, fun _ hraw => absurd hraw hnot⟩

theorem Reads.blank_iff (h : Reads rt data project outs) :
    (∃ n ∈ project.nets, pyStrip n.name = "") ↔
      ∃ raw ∈ partEntries (extractSection data) "nets", IsNet rt raw ∧ pyStrip (field rt raw "name") = "" := by
  have hall : (∀ n ∈ project.nets, pyStrip n.name ≠ "") ↔
      ∀ raw ∈ partEntries (extractSection data) "nets", IsNet rt raw → pyStrip (field rt raw "name") ≠ "" := by
    rw [h.nets]
    refine forall_mem_lefts_iff ?_ ?_ (Reads.net_outcomes rt _)
    · intro raw n hparse
      obtain ⟨hnet, rfl⟩ := mapped_parseNet hparse
      exact forall_prop_of_true hnet
    · intro raw record hparse hnet
      exact absurd hnet (recorded_parseNet hparse).1
  have hnot := not_congr hall
  push Not at hnot
  exact hnot

theorem forall_mem_pins_iff {entries : List PyValue} {ps : List EasyEdaStdPin}
    (h : List.Forall₂ (MapsPin rt) entries ps) :
    (∀ p ∈ ps, p.componentId ≠ "" ∧ p.pinNumber ≠ "") ↔
      ∀ p ∈ entries, field rt p "componentId" ≠ "" ∧ field rt p "pinNumber" ≠ "" := by
  induction h with
  | nil => exact iff_of_true nofun nofun
  | cons hp _ ih => rw [forall_mem_cons, forall_mem_cons, ih, hp.componentId, hp.pinNumber]

theorem Reads.pins_iff (h : Reads rt data project outs)
    (hobjects : ∀ raw ∈ partEntries (extractSection data) "nets", IsNet rt raw → PinsAreObjects raw) :
    (∀ n ∈ project.nets, ∀ p ∈ n.pins, p.componentId ≠ "" ∧ p.pinNumber ≠ "") ↔
      ∀ raw ∈ partEntries (extractSection data) "nets", IsNet rt raw → ∀ p ∈ pinEntries raw,
        field rt p "componentId" ≠ "" ∧ field rt p "pinNumber" ≠ "" := by
  have hparses : List.Forall₂
      (fun raw out => parseNet rt "schematic.nets" raw = out ∧ (IsNet rt raw → PinsAreObjects raw))
      (partEntries (extractSection data) "nets")
      ((partEntries (extractSection data) "nets").map (parseNet rt "schematic.nets")) :=
    forall₂_map_right_iff.mpr (forall₂_same.mpr fun raw hraw => ⟨rfl, hobjects raw hraw⟩)
  rw [h.nets]
  refine forall_mem_lefts_iff ?_ ?_ hparses
  · rintro raw n ⟨hparse, hpins⟩
    obtain ⟨hnet, rfl⟩ := mapped_parseNet hparse
    exact (forall_prop_of_true hnet).trans (forall_mem_pins_iff (forall₂_parsePins_iff.mpr (hpins hnet))).symm
  · rintro raw record ⟨hparse, -⟩ hnet
    exact absurd hnet (recorded_parseNet hparse).1

/-- **Every entry is mapped or recorded and nothing is dropped** exactly when the document is mappable. -/
theorem mapsAll_iff : MapsAll rt data name ↔ Mappable rt data := by
  constructor
  · rintro ⟨project, hread, hmapped, hconverted⟩
    obtain ⟨hloops, outs, hreads⟩ := readData_ok hread
    obtain ⟨hsections, hobjects⟩ := hreads.mapped_iff.mp hmapped
    refine ⟨hloops, (exists_readData_iff.mp ⟨project, hread⟩).2, hsections, hobjects, ?_⟩
    cases hdesign : easyedaStdProjectToDesign project name with
    | none => exact .inl (hreads.blank_iff.mp (easyedaStdProjectToDesign_eq_none_iff.mp hdesign))
    | some design =>
      obtain ⟨hcomponents, hnets, hpins⟩ := (converted_iff hdesign).mp (hconverted design hdesign)
      exact .inr ⟨hreads.component_ids_iff.mp hcomponents, hreads.net_ids_iff.mp hnets,
        (hreads.pins_iff hobjects).mp hpins⟩
  · intro h
    obtain ⟨project, hread⟩ := exists_readData_iff.mpr ⟨h.loops, h.floats⟩
    obtain ⟨-, outs, hreads⟩ := readData_ok hread
    refine ⟨project, hread, hreads.mapped_iff.mpr ⟨h.one_section, h.objects⟩, fun design hdesign => ?_⟩
    rcases h.converts with hblank | hconvertible
    · -- a blank name is refused, so there is no design
      have hnone : easyedaStdProjectToDesign project name = none :=
        easyedaStdProjectToDesign_eq_none_iff.mpr (hreads.blank_iff.mpr hblank)
      cases hnone.symm.trans hdesign
    · exact (converted_iff hdesign).mpr ⟨hreads.component_ids_iff.mpr hconvertible.component_ids,
        hreads.net_ids_iff.mpr hconvertible.net_ids, (hreads.pins_iff h.objects).mpr hconvertible.pins⟩

end ZapTrace.EasyEdaStd
