import RV640.Fdt.Read
import RV640.Lib.Outline

set_option autoImplicit false

/-! # What a device tree says

The tree that balanced calls stand for, and the reading of its properties as the devicetree format
has it: `reg` by the cell counts of the parent, and interrupts by phandle. This is the view of a
guest; the emulator itself never reads a tree.
-/

namespace RV640

open Bits Bytes

/-- A node: its name, its properties and its subnodes. -/
abbrev FdtTree := Outline.Tree CString (CString × List Byte)

/-! ## Trees and calls -/

/-- A call as a bracket. -/
def FdtCall.token : FdtCall → Outline.Token CString (CString × List Byte)
  | beginNode name => .opening name
  | property name val => .item (name, val)
  | endNode => .closing

/-- A bracket as a call. -/
def FdtCall.ofToken : Outline.Token CString (CString × List Byte) → FdtCall
  | .opening name => beginNode name
  | .item (name, val) => property name val
  | .closing => endNode

@[simp] theorem FdtCall.token_ofToken (t : Outline.Token CString (CString × List Byte)) :
    (FdtCall.ofToken t).token = t := by
  cases t <;> rfl

/-- The calls that write a tree. -/
def treeCalls (t : FdtTree) : List FdtCall := (Outline.tokens t).map .ofToken

/-- The trees of a blob. -/
def fdtTrees (assumePerfect : Bool) (fdt : HostBuf) : Option (List FdtTree) :=
  (fdtTokens assumePerfect fdt).bind fun ts => Outline.parse (ts.map FdtCall.token)

theorem parse_treeCalls (t : FdtTree) :
    Outline.parse ((treeCalls t).map FdtCall.token) = some [t] := by
  have hmap : (treeCalls t).map FdtCall.token = Outline.tokens t := by
    rw [treeCalls, List.map_map]
    exact List.map_id'' FdtCall.token_ofToken _
  rw [hmap, Outline.parse_tokens]

/-! ## Properties -/

namespace FdtTree

/-- The name of a node. -/
def name : FdtTree → CString
  | .node name _ _ => name

/-- The value of a property. -/
def prop : FdtTree → String → Option (List Byte)
  | .node _ items _, key => (items.find? fun item => item.1 = cstr key).map Prod.snd

/-- The cells of a value. -/
def cells : List Byte → List (BitVec 32)
  | a :: b :: c :: d :: bs => ofBytes [d, c, b, a] :: cells bs
  | _ => []

/-- A property of one cell. -/
def cell (t : FdtTree) (key : String) : Option (BitVec 32) :=
  match (prop t key).map cells with
  | some [w] => some w
  | _ => none

/-- A number of several cells, the highest first. -/
def ofCells (ws : List (BitVec 32)) : Nat := ws.foldl (fun n w => n * 2 ^ 32 + w.toNat) 0

/-! ## Addresses -/

/-- The cells of an address and of a size below a node. -/
def addressCells (t : FdtTree) : Nat := ((cell t "#address-cells").getD 2#32).toNat
def sizeCells (t : FdtTree) : Nat := ((cell t "#size-cells").getD 1#32).toNat

/-- The base and the size in `reg`, for the cell counts of the parent. -/
def reg (ac sc : Nat) (t : FdtTree) : Option (Nat × Nat) :=
  (prop t "reg").map fun v =>
    (ofCells ((cells v).take ac), ofCells (((cells v).drop ac).take sc))

mutual

/-- The address ranges of the nodes below a node. -/
def ranges : FdtTree → List (Nat × Nat)
  | .node name items children =>
      childRanges (addressCells (.node name items children))
        (sizeCells (.node name items children)) children

/-- The address ranges of some nodes, and of what they map through with an empty `ranges`. Without
`ranges` the addresses below a node are its own, and without a size they are no ranges. -/
def childRanges (ac sc : Nat) : List FdtTree → List (Nat × Nat)
  | [] => []
  | t :: ts =>
      (if sc = 0 then [] else (reg ac sc t).toList)
        ++ (if prop t "ranges" = some [] then ranges t else []) ++ childRanges ac sc ts

end

/-! ## Interrupts -/

mutual

/-- A node and all nodes below it, in the order of the blob. -/
def nodes : FdtTree → List FdtTree
  | .node name items children => .node name items children :: nodesOf children

/-- All nodes of some trees. -/
def nodesOf : List FdtTree → List FdtTree
  | [] => []
  | t :: ts => nodes t ++ nodesOf ts

end

/-- The phandles of a tree. -/
def phandles (root : FdtTree) : List (BitVec 32) := (nodes root).filterMap (cell · "phandle")

/-- The node with a phandle, when it is an interrupt controller with one cell an interrupt. -/
def controller (root : FdtTree) (phandle : BitVec 32) : Option FdtTree :=
  ((nodes root).find? fun t => cell t "phandle" = some phandle).filter fun t =>
    (prop t "interrupt-controller").isSome && cell t "#interrupt-cells" = some 1#32

/-- The pairs of `interrupts-extended`: a phandle and an interrupt. -/
def irqPairs : List (BitVec 32) → List (BitVec 32 × BitVec 32)
  | phandle :: irq :: ws => (phandle, irq) :: irqPairs ws
  | _ => []

/-- The interrupts of a node. -/
def irqs (t : FdtTree) : List (BitVec 32 × BitVec 32) :=
  match prop t "interrupts-extended" with
  | some v => irqPairs (cells v)
  | none =>
      match cell t "interrupt-parent" with
      | some phandle => (((prop t "interrupts").map cells).getD []).map fun irq => (phandle, irq)
      | none => []

/-- The interrupt lines of a tree: the source, the controller and the number there. -/
def irqLines (root : FdtTree) : List (CString × CString × Nat) :=
  (nodes root).flatMap fun t =>
    (irqs t).filterMap fun p => (controller root p.1).map fun u => (name t, name u, p.2.toNat)

end FdtTree

end RV640
