import Mathlib.Tactic

set_option autoImplicit false

/-! # Trees written as brackets

A node has a name, items and children. `tokens` writes it as an opening bracket, its items, its
children and a closing bracket; `parse` reads a sequence of such tokens with a stack of open nodes.
Reading what was written gives the tree back.
-/

namespace Outline

variable {α β : Type}

/-- A named node with items, and below it its children. -/
inductive Tree (α β : Type) where
  | node (name : α) (items : List β) (children : List (Tree α β))

/-- The brackets and what stands between them. -/
inductive Token (α β : Type) where
  | opening (name : α)
  | item (b : β)
  | closing
  deriving DecidableEq, Repr

/-! ## Writing -/

mutual

/-- The tokens of a tree. -/
def tokens : Tree α β → List (Token α β)
  | .node name items children =>
      .opening name :: (items.map .item ++ (forest children ++ [.closing]))

/-- The tokens of one tree after the other. -/
def forest : List (Tree α β) → List (Token α β)
  | [] => []
  | t :: ts => tokens t ++ forest ts

end

/-! ## Reading -/

/-- A node that is still open. -/
structure Frame (α β : Type) where
  name : α
  items : List β
  children : List (Tree α β)

/-- The open nodes, the innermost first, and the trees that are complete. -/
structure Parser (α β : Type) where
  stack : List (Frame α β)
  roots : List (Tree α β)

/-- A complete tree goes to the innermost open node. -/
def Parser.add (p : Parser α β) (t : Tree α β) : Parser α β :=
  match p.stack with
  | [] => { p with roots := p.roots ++ [t] }
  | f :: fs => { p with stack := { f with children := f.children ++ [t] } :: fs }

/-- One token. An item has to stand in a node, before the children of the node. -/
def Parser.step (p : Parser α β) : Token α β → Option (Parser α β)
  | .opening name => some { p with stack := ⟨name, [], []⟩ :: p.stack }
  | .item b =>
      match p.stack with
      | ⟨name, items, []⟩ :: fs => some { p with stack := ⟨name, items ++ [b], []⟩ :: fs }
      | _ => none
  | .closing =>
      match p.stack with
      | ⟨name, items, children⟩ :: fs =>
          some (Parser.add { p with stack := fs } (.node name items children))
      | [] => none

/-- All tokens. -/
def Parser.run (p : Parser α β) : List (Token α β) → Option (Parser α β)
  | [] => some p
  | t :: ts => (p.step t).bind fun q => q.run ts

/-- The trees of a token sequence; `none` when a bracket or an item is out of place. -/
def parse (ts : List (Token α β)) : Option (List (Tree α β)) :=
  match Parser.run ⟨[], []⟩ ts with
  | some ⟨[], roots⟩ => some roots
  | _ => none

/-! ## Reading what was written -/

theorem Parser.run_append (p : Parser α β) (xs ys : List (Token α β)) :
    p.run (xs ++ ys) = (p.run xs).bind fun q => q.run ys := by
  induction xs generalizing p with
  | nil => rfl
  | cons t xs ih =>
      rw [List.cons_append, Parser.run, Parser.run]
      cases p.step t with
      | none => rfl
      | some q => exact ih q

theorem Parser.run_items (name : α) (items : List β) (fs : List (Frame α β))
    (roots : List (Tree α β)) (bs : List β) :
    Parser.run ⟨⟨name, items, []⟩ :: fs, roots⟩ (bs.map .item)
      = some ⟨⟨name, items ++ bs, []⟩ :: fs, roots⟩ := by
  induction bs generalizing items with
  | nil => simp [Parser.run]
  | cons b bs ih =>
      rw [List.map_cons, Parser.run]
      simp only [Parser.step, Option.bind_some]
      rw [ih, List.append_assoc, List.singleton_append]

/-- Complete trees go to the innermost open node in order. -/
def Parser.addAll (p : Parser α β) (ts : List (Tree α β)) : Parser α β := ts.foldl Parser.add p

theorem Parser.addAll_open (f : Frame α β) (fs : List (Frame α β)) (roots ts : List (Tree α β)) :
    Parser.addAll ⟨f :: fs, roots⟩ ts
      = ⟨{ f with children := f.children ++ ts } :: fs, roots⟩ := by
  induction ts generalizing f with
  | nil => simp [Parser.addAll]
  | cons t ts ih =>
      have h := ih { f with children := f.children ++ [t] }
      simp only [List.append_assoc, List.singleton_append] at h
      exact h

mutual

/-- The tokens of a tree add it to the innermost open node. -/
theorem Parser.run_tokens (p : Parser α β) (t : Tree α β) : p.run (tokens t) = some (p.add t) := by
  match t with
  | .node name items children =>
      rw [tokens, Parser.run]
      simp only [Parser.step, Option.bind_some]
      rw [Parser.run_append, Parser.run_items, Option.bind_some, Parser.run_append,
        Parser.run_forest _ children, Option.bind_some, Parser.addAll_open, List.nil_append,
        List.nil_append]
      rfl

theorem Parser.run_forest (p : Parser α β) (ts : List (Tree α β)) :
    p.run (forest ts) = some (p.addAll ts) := by
  match ts with
  | [] => rfl
  | t :: ts =>
      rw [forest, Parser.run_append, Parser.run_tokens p t, Option.bind_some,
        Parser.run_forest _ ts]
      rfl

end

/-- **Reading a written tree gives it back.** -/
theorem parse_tokens (t : Tree α β) : parse (tokens t) = some [t] := by
  rw [parse, Parser.run_tokens]
  rfl

end Outline
