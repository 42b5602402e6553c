import Primer.Proofs.Evaluation.Fundamental
import Primer.Proofs.Machine.Bare

/-!
# Shapes of bare forms

A node has the shape of its bare form, with children that have the shapes of theirs. So two nodes of
one bare form have one shape, and evaluations of them take the same branches.
-/

namespace Primer

/-! ### Shapes that have a third in common -/

section Join

variable {α : Type} {first second related : α → α → Prop}

theorem forall₂_join (meet : ∀ a b c, first a c → second b c → related a b) {xs ys zs : List α}
    (left : List.Forall₂ first xs zs) (right : List.Forall₂ second ys zs) :
    List.Forall₂ related xs ys := by
  induction left generalizing ys with
  | nil =>
    cases right
    exact .nil
  | cons head _ ih =>
    cases right with
    | cons head' tail' => exact .cons (meet _ _ _ head head') (ih tail')

theorem optionRel_join (meet : ∀ a b c, first a c → second b c → related a b) {x y z : Option α}
    (left : Option.Rel first x z) (right : Option.Rel second y z) : Option.Rel related x y := by
  cases left with
  | none =>
    cases right
    exact .none
  | some some =>
    cases right with
    | some some' => exact .some (meet _ _ _ some some')

end Join

section JoinNodes

variable {first second related : Node → Node → Prop}
  (meet : ∀ a b c, first a c → second b c → related a b)
include meet

theorem SameBody.join {x y z : Body} (left : SameBody first x z) (right : SameBody second y z) :
    SameBody related x y := by
  cases left with
  | inline statement =>
    cases right with
    | inline statement' => exact .inline (meet _ _ _ statement statement')
  | block statements =>
    cases right with
    | block statements' => exact .block (forall₂_join meet statements statements')

theorem SameBranches.join {x y z : Branches} (left : SameBranches first x z)
    (right : SameBranches second y z) : SameBranches related x y := by
  induction left generalizing y with
  | none =>
    cases right
    exact .none
  | otherwise last =>
    cases right with
    | otherwise last' => exact .otherwise (last.join meet last')
  | elif test body _ ih =>
    cases right with
    | elif test' body' rest' => exact .elif (meet _ _ _ test test') (body.join meet body') (ih rest')

theorem SameNode.join {x y z : Node} (left : SameNode first x z) (right : SameNode second y z) :
    SameNode related x y := by
  cases left with
  | number value span =>
    cases right with
    | number _ span' => exact .number value span span'
  | string value span =>
    cases right with
    | string _ span' => exact .string value span span'
  | list children =>
    cases right with
    | list children' => exact .list (forall₂_join meet children children')
  | access name =>
    cases right with
    | access name' => exact .access (name.trans name'.symm)
  | assign name child =>
    cases right with
    | assign name' child' => exact .assign (name.trans name'.symm) (meet _ _ _ child child')
  | binary operator head tail =>
    cases right with
    | binary _ head' tail' =>
      exact .binary operator (meet _ _ _ head head') (meet _ _ _ tail tail')
  | unary operator child =>
    cases right with
    | unary _ child' => exact .unary operator (meet _ _ _ child child')
  | conditional branches =>
    cases right with
    | conditional branches' => exact .conditional (branches.join meet branches')
  | forLoop name start stop stride loop =>
    cases right with
    | forLoop name' start' stop' stride' loop' =>
      exact .forLoop (name.trans name'.symm) (meet _ _ _ start start') (meet _ _ _ stop stop')
        (optionRel_join meet stride stride') (loop.join meet loop')
  | whileLoop test loop =>
    cases right with
    | whileLoop test' loop' => exact .whileLoop (meet _ _ _ test test') (loop.join meet loop')
  | repeatLoop times loop =>
    cases right with
    | repeatLoop times' loop' => exact .repeatLoop (meet _ _ _ times times') (loop.join meet loop')
  | function names =>
    cases right with
    | function names' => exact .function (names.trans names'.symm)
  | call function values =>
    cases right with
    | call function' values' =>
      exact .call (meet _ _ _ function function') (forall₂_join meet values values')
  | returning result =>
    cases right with
    | returning result' => exact .returning (optionRel_join meet result result')
  | continuing span =>
    cases right with
    | continuing span' => exact .continuing span span'
  | breaking span =>
    cases right with
    | breaking span' => exact .breaking span span'

end JoinNodes

/-! ### A node has the shape of its bare form -/

/-- The second is the bare form of the first. -/
abbrev BareForm (node node' : Node) : Prop :=
  node.bare = node'

theorem forall₂_bareAll (nodes : List Node) : List.Forall₂ BareForm nodes (Node.bareAll nodes) := by
  rw [Node.bareAll_eq_map, List.forall₂_map_right_iff, List.forall₂_same]
  exact fun _ _ => rfl

theorem optionRel_bareOption (node : Option Node) :
    Option.Rel BareForm node (Node.bareOption node) := by
  cases node with
  | none => exact .none
  | some node => exact .some rfl

theorem Body.same_bare (body : Body) : SameBody BareForm body body.bare := by
  cases body with
  | inline => exact .inline rfl
  | block statements => exact .block (forall₂_bareAll statements)

theorem Branches.same_bare (others : Branches) : SameBranches BareForm others others.bare := by
  cases others with
  | none => exact .none
  | otherwise body => exact .otherwise body.same_bare
  | elif _ body others => exact .elif rfl body.same_bare others.same_bare

theorem Node.same_bare (node : Node) : SameNode BareForm node node.bare := by
  cases node with
  | number value span => exact .number value span nowhere
  | string value span => exact .string value span nowhere
  | list elements => exact .list (forall₂_bareAll elements)
  | «variable» => exact .access rfl
  | assign => exact .assign rfl rfl
  | binary _ operator => exact .binary operator rfl rfl
  | unary operator => exact .unary operator rfl
  | conditional condition body others =>
    exact .conditional (Branches.same_bare (.elif condition body others))
  | forLoop _ _ _ step body =>
    exact .forLoop rfl rfl rfl (optionRel_bareOption step) body.same_bare
  | whileLoop _ body => exact .whileLoop rfl body.same_bare
  | repeatLoop _ body => exact .repeatLoop rfl body.same_bare
  | function name => exact .function (by cases name <;> rfl)
  | call _ arguments => exact .call rfl (forall₂_bareAll arguments)
  | returning value => exact .returning (optionRel_bareOption value)
  | continuing span => exact .continuing span nowhere
  | breaking span => exact .breaking span nowhere

/-- Nodes of one bare form have one shape, with children of one bare form each. -/
theorem SameNode.of_bare {related : Node → Node → Prop} {node node' : Node}
    (same : node.bare = node'.bare) (children : ∀ a b : Node, a.bare = b.bare → related a b) :
    SameNode related node node' := by
  have right : SameNode BareForm node' node.bare := same ▸ node'.same_bare
  exact SameNode.join (fun a b _ left right => children a b (left.trans right.symm)) node.same_bare
    right

theorem SameBody.of_bare {related : Node → Node → Prop} {body body' : Body}
    (same : body.bare = body'.bare) (children : ∀ a b : Node, a.bare = b.bare → related a b) :
    SameBody related body body' := by
  have right : SameBody BareForm body' body.bare := same ▸ body'.same_bare
  exact SameBody.join (fun a b _ left right => children a b (left.trans right.symm)) body.same_bare
    right

end Primer
