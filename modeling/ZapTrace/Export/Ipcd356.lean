import Mathlib.Data.Char
import Mathlib.Data.List.Dedup
import Mathlib.Data.List.Lex
import ZapTrace.Core.Models
import ZapTrace.Library.Fields

/-!
# The IPC-D-356 netlist

The nodes of all nets are written as records, one a line, with keywords between the parts. The reader splits lines
at white space, and takes the parts of a record from behind the first of each keyword. The nets of the design and
those read are compared by name. A string is the list of its characters.
-/

namespace ZapTrace.Ipcd356

open Fields

abbrev Text := List Char

structure Component where
  id : String
  ref : String

structure Design where
  /-- The name in the metadata. -/
  name : String := ""
  components : Dict String Component := Dict.empty
  nets : Dict String Models.Net := Dict.empty

/-! ## The nets of the design -/

def nodeKey (component_ref pin_name : Text) : Text := component_ref ++ '.' :: pin_name

/-- Reference designators by identifiers, and by themselves. -/
def componentRefAliases (design : Design) : Dict String String :=
  design.components.values.foldl
    (fun aliases component => (aliases.set component.id component.ref).set component.ref component.ref) Dict.empty

def netNodes (design : Design) (net : Models.Net) : List Text :=
  (net.nodes.map fun node =>
    nodeKey (((componentRefAliases design).get? node.component_ref).getD node.component_ref).toList
      node.pin_name.toList).dedup

/-- The nodes of the nets by their names. The last net with a name replaces the others. -/
def designRefNetMap (design : Design) : Dict Text (List Text) :=
  design.nets.values.foldl (fun result net => result.set net.name.toList (netNodes design net)) Dict.empty

/-! ## The writer -/

def sorted (texts : List Text) : List Text := texts.mergeSort fun a b => a ≤ b

/-- What stands before and after the first dot. -/
def splitDot (node : Text) : Text × Text :=
  (node.takeWhile fun c => c ≠ '.', (node.dropWhile fun c => c ≠ '.').drop 1)

def recordLine (net_name node : Text) : Text :=
  let (ref, pin) := splitDot node
  "P NET ".toList ++ net_name ++ " REF ".toList ++ ref ++ " PIN ".toList ++ pin

def titleLine : Text := "C  ZapTrace IPC-D-356 connectivity subset".toList

def designLine (design : Design) : Text := "C  DESIGN ".toList ++ design.name.toList

def formatLine : Text := "C  RECORD P NET <net-name> REF <reference> PIN <pin-name>".toList

def endLine : Text := "999".toList

def recordLines (nets : Dict Text (List Text)) : List Text :=
  (nets.items.mergeSort fun a b => a.1 ≤ b.1).flatMap fun (net_name, nodes) =>
    (sorted nodes).map (recordLine net_name)

/-- The lines, each with a line break at its end. -/
def generateIpcd356 (design : Design) : Text :=
  ([titleLine, designLine design, formatLine] ++ recordLines (designRefNetMap design) ++ [endLine]).flatMap fun line => line ++ ['\n']

/-! ## The reader -/

/-- The characters that end a line. -/
def isLineBreak (c : Char) : Bool :=
  c ∈ ['\n', '\x0b', '\x0c', '\r', '\x1c', '\x1d', '\x1e', '\x85', '\u2028', '\u2029']

/-- The white space characters. -/
def isSpace (c : Char) : Bool :=
  isLineBreak c || c ∈ ['\t', '\x1f', ' ', '\xa0', '\u1680', '\u202f', '\u205f', '\u3000'] ||
    ('\u2000' ≤ c && c ≤ '\u200a')

/-- The lines of a text, with the beginning of the current one. -/
def splitlinesFrom (line : Text) : Text → List Text
  | [] => if line = [] then [] else [line]
  | '\r' :: '\n' :: rest => line :: splitlinesFrom [] rest
  | c :: rest => if isLineBreak c then line :: splitlinesFrom [] rest else splitlinesFrom (line ++ [c]) rest

def splitlines (text : Text) : List Text := splitlinesFrom [] text

/-- The words of a line. White space at its ends does not matter. -/
def words (line : Text) : List Text := fields isSpace line

inductive ParseError
  /-- There is no word at an index. -/
  | index
  deriving DecidableEq

/-- The name of the net and the node of a record. -/
def readRecord (parts : List Text) : Except ParseError (Option (Text × Text)) :=
  if parts.length < 7 ∨ parts.head? ≠ some "P".toList then .ok none
  else
    match parts.idxOf? "NET".toList, parts.idxOf? "REF".toList, parts.idxOf? "PIN".toList with
    | some net_index, some ref_index, some pin_index =>
      let net_name := joined ' ' ((parts.take ref_index).drop (net_index + 1))
      match parts[ref_index + 1]? with
      | none => .error .index
      | some ref =>
        let pin := joined ' ' (parts.drop (pin_index + 1))
        if net_name ≠ [] ∧ ref ≠ [] ∧ pin ≠ [] then .ok (some (net_name, nodeKey ref pin)) else .ok none
    | _, _, _ => .ok none

def addNode (result : Dict Text (List Text)) (net_name node : Text) : Dict Text (List Text) :=
  let nodes := (result.get? net_name).getD []
  result.set net_name (if node ∈ nodes then nodes else nodes ++ [node])

def parseLine (result : Dict Text (List Text)) (line : Text) : Except ParseError (Dict Text (List Text)) :=
  match readRecord (words line) with
  | .error e => .error e
  | .ok none => .ok result
  | .ok (some (net_name, node)) => .ok (addNode result net_name node)

def parseIpcd356 (text : Text) : Except ParseError (Dict Text (List Text)) :=
  (splitlines text).foldlM parseLine Dict.empty

/-! ## The comparison -/

structure NetPinMismatch where
  net_id : Text
  missing_nodes : List Text
  extra_nodes : List Text
  deriving DecidableEq

structure ParityReport where
  passed : Bool
  missing_nets : List Text
  extra_nets : List Text
  pin_mismatches : List NetPinMismatch
  ir_net_count : ℕ
  ipc_d356_net_count : ℕ
  message : String
  deriving DecidableEq

def difference (first second : List Text) : List Text := sorted (first.filter fun text => text ∉ second)

def compareMaps (ir ipc : Dict Text (List Text)) : ParityReport :=
  let missing_nets := difference ir.keys ipc.keys
  let extra_nets := difference ipc.keys ir.keys
  let mismatches := (sorted (ir.keys.filter fun net_name => net_name ∈ ipc.keys)).filterMap fun net_name =>
    let ir_nodes := (ir.get? net_name).getD []
    let ipc_nodes := (ipc.get? net_name).getD []
    let missing_nodes := difference ir_nodes ipc_nodes
    let extra_nodes := difference ipc_nodes ir_nodes
    if missing_nodes ≠ [] ∨ extra_nodes ≠ [] then some ⟨net_name, missing_nodes, extra_nodes⟩ else none
  let passed := missing_nets = [] ∧ extra_nets = [] ∧ mismatches = []
  { passed := passed
    missing_nets := missing_nets
    extra_nets := extra_nets
    pin_mismatches := mismatches
    ir_net_count := ir.keys.length
    ipc_d356_net_count := ipc.keys.length
    message := if passed then "IR and IPC-D-356 netlist match" else "IR and IPC-D-356 netlist differ" }

def compareIrToIpcd356 (design : Design) (ipc_text : Text) : Except ParseError ParityReport :=
  (parseIpcd356 ipc_text).map (compareMaps (designRefNetMap design))

end ZapTrace.Ipcd356
