import Primer.Proofs.Parsing.Reading

/-!
# Spans of the syntax tree

Tokens that stand one behind the other give a tree whose spans are nested: what stands in a node
lies inside its span, part behind part, and every end of a span is an end of a token. This is where
an empty block and an operand in parentheses could go wrong, since they take their spans from tokens
that are not their own.

Which offsets are ends of tokens is left open. It is a parameter, a predicate on offsets that the
ends of the tokens are required to have.
-/

namespace Primer

section Spans

variable (boundary : Nat → Prop)

/-- The span starts no earlier than the offset, is not reversed, and has boundaries for its ends. -/
structure Span.Follows (offset : Nat) (span : Span) : Prop where
  after : offset ≤ span.start
  ordered : span.start ≤ span.stop
  starts : boundary span.start
  stops : boundary span.stop

theorem Span.Follows.le {boundary : Nat → Prop} {offset : Nat} {span : Span}
    (follows : span.Follows boundary offset) : offset ≤ span.stop :=
  Nat.le_trans follows.after follows.ordered

theorem Span.Follows.here {boundary : Nat → Prop} {offset : Nat} {span : Span}
    (follows : span.Follows boundary offset) : span.Follows boundary span.start :=
  ⟨Nat.le_refl _, follows.ordered, follows.starts, follows.stops⟩

/-- Spans one behind the other between two offsets. -/
def Laid : Nat → Nat → List Span → Prop
  | lo, hi, [] => lo ≤ hi
  | lo, hi, span :: spans => span.Follows boundary lo ∧ Laid span.stop hi spans

end Spans

variable {boundary : Nat → Prop} {lo mid hi : Nat} {span first last : Span}
  {spans spans' : List Span}

namespace Laid

theorem le (laid : Laid boundary lo hi spans) : lo ≤ hi := by
  induction spans generalizing lo with
  | nil => exact laid
  | cons span spans ih =>
    obtain ⟨follows, others⟩ := laid
    exact Nat.le_trans follows.le (ih others)

theorem after (below : lo ≤ mid) (laid : Laid boundary mid hi spans) :
    Laid boundary lo hi spans := by
  cases spans with
  | nil => exact Nat.le_trans below laid
  | cons span spans =>
    obtain ⟨follows, others⟩ := laid
    exact ⟨⟨Nat.le_trans below follows.after, follows.ordered, follows.starts, follows.stops⟩,
      others⟩

theorem append_iff : Laid boundary lo hi (spans ++ spans') ↔
    ∃ mid, Laid boundary lo mid spans ∧ Laid boundary mid hi spans' := by
  induction spans generalizing lo with
  | nil =>
    constructor
    · intro laid
      exact ⟨lo, Nat.le_refl lo, laid⟩
    · rintro ⟨mid, below, laid⟩
      exact laid.after below
  | cons span spans ih =>
    simp only [List.cons_append, Laid, ih]
    constructor
    · rintro ⟨follows, mid, first, second⟩
      exact ⟨mid, ⟨follows, first⟩, second⟩
    · rintro ⟨mid, ⟨follows, first⟩, second⟩
      exact ⟨follows, mid, first, second⟩

/-- The spans reach from the first to the last, wherever the offsets around them are. -/
theorem tighten (laid : Laid boundary lo hi spans) (head : spans.head? = some first)
    (tail : spans.getLast? = some last) :
    Laid boundary first.start last.stop spans ∧ lo ≤ first.start ∧ last.stop ≤ hi ∧
      boundary first.start ∧ boundary last.stop := by
  induction spans generalizing lo first with
  | nil => cases head
  | cons span spans ih =>
    obtain ⟨follows, others⟩ := laid
    cases head
    cases spans with
    | nil =>
      cases tail
      exact ⟨⟨follows.here, Nat.le_refl _⟩, follows.after, others, follows.starts,
        follows.stops⟩
    | cons next spans =>
      rw [List.getLast?_cons_cons] at tail
      obtain ⟨inside, after, before, -, stops⟩ := ih others rfl tail
      exact ⟨⟨follows.here, inside.after after⟩, follows.after, before, follows.starts, stops⟩

end Laid

/-- The spans of the branches after the first, condition by condition and body by body. -/
def Branches.places : Branches → List Span
  | .none => []
  | .otherwise body => [body.span]
  | .elif condition body others => condition.span :: body.span :: others.places

namespace Node

/-- The spans of what stands directly in a node, in the order of the source. -/
def places : Node → List Span
  | .list elements _ => elements.map Node.span
  | .variable ident => [ident.span]
  | .assign target value _ => [target.span, value.span]
  | .binary left _ right _ => [left.span, right.span]
  | .unary _ operand _ => [operand.span]
  | .conditional condition body others _ => condition.span :: body.span :: others.places
  | .forLoop counter first limit step body _ =>
    counter.span :: first.span :: limit.span :: step.toList.map Node.span ++ [body.span]
  | .whileLoop condition body _ => [condition.span, body.span]
  | .repeatLoop count body _ => [count.span, body.span]
  | .function name params body _ =>
    name.toList.map Ident.span ++ (params.map Ident.span ++ [body.span])
  | .call callee arguments _ => callee.span :: arguments.map Node.span
  | .returning value _ => value.toList.map Node.span
  | _ => []

/-- The bodies that stand directly in a node. -/
def bodies : Node → List Body
  | .conditional _ body others _ => body :: others.bodies
  | .forLoop _ _ _ _ body _ | .whileLoop _ body _ | .repeatLoop _ body _ | .function _ _ body _ =>
    [body]
  | _ => []

end Node

section Nested

variable (boundary : Nat → Prop)

/-- The statements of a block lie inside it. -/
def Body.Nested : Body → Prop
  | .inline _ => True
  | .block statements span => Laid boundary span.start span.stop (statements.map Node.span)

namespace Node

/-- What stands in the node lies inside it, part behind part. -/
structure Nested (node : Node) : Prop where
  starts : boundary node.span.start
  stops : boundary node.span.stop
  places : Laid boundary node.span.start node.span.stop node.places
  bodies : ∀ body ∈ node.bodies, body.Nested boundary

/-- The node and all that stands in it are nested. -/
def Settled (node : Node) : Prop :=
  ∀ inner : Node, inner.PartOf node → inner.Nested boundary

end Node

/-- Spans one behind the other, with the nodes and the bodies that they are the spans of. -/
structure Arranged (lo hi : Nat) (places : List Span) (nodes : List Node) (bodies : List Body) :
    Prop where
  laid : Laid boundary lo hi places
  settled : ∀ node ∈ nodes, node.Settled boundary
  nested : ∀ body ∈ bodies, body.Nested boundary

end Nested

namespace Arranged

variable {places places' : List Span} {nodes nodes' : List Node} {bodies bodies' : List Body}

theorem nil (below : lo ≤ hi) : Arranged boundary lo hi [] [] [] :=
  ⟨below, nofun, nofun⟩

theorem append (left : Arranged boundary lo mid places nodes bodies)
    (right : Arranged boundary mid hi places' nodes' bodies') :
    Arranged boundary lo hi (places ++ places') (nodes ++ nodes') (bodies ++ bodies') :=
  ⟨Laid.append_iff.mpr ⟨mid, left.laid, right.laid⟩,
    List.forall_mem_append.mpr ⟨left.settled, right.settled⟩,
    List.forall_mem_append.mpr ⟨left.nested, right.nested⟩⟩

/-- Tokens in front do not matter. -/
theorem after (below : lo ≤ mid) (arranged : Arranged boundary mid hi places nodes bodies) :
    Arranged boundary lo hi places nodes bodies :=
  ⟨arranged.laid.after below, arranged.settled, arranged.nested⟩

/-- Nor do tokens behind. -/
theorem before (arranged : Arranged boundary lo mid places nodes bodies) (below : mid ≤ hi) :
    Arranged boundary lo hi places nodes bodies := by
  have both := arranged.append (nil below)
  simpa only [List.append_nil] using both

/-- A name has a span and no node of its own. -/
theorem name (follows : span.Follows boundary lo)
    (behind : Arranged boundary span.stop hi places nodes bodies) :
    Arranged boundary lo hi (span :: places) nodes bodies :=
  ⟨⟨follows, behind.laid⟩, behind.settled, behind.nested⟩

/-- A node takes the place of what stands in it. -/
theorem node {node : Node} {start stop : Nat} (same : node.span = ⟨start, stop⟩)
    (after : lo ≤ start) (starts : boundary start) (stops : boundary stop) (before : stop ≤ hi)
    (inside : Arranged boundary start stop node.places node.parts node.bodies) :
    Arranged boundary lo hi [node.span] [node] [] := by
  have nested : node.Nested boundary := by
    constructor
    · rwa [same]
    · rwa [same]
    · rw [same]
      exact inside.laid
    · exact inside.nested
  refine ⟨⟨?_, ?_⟩, List.forall_mem_singleton.mpr ?_, nofun⟩
  · exact ⟨same ▸ after, nested.places.le, nested.starts, nested.stops⟩
  · rw [same]
    exact before
  · exact Node.forall_partOf_iff.mpr ⟨nested, inside.settled⟩

/-- The span of most nodes reaches from the first of their parts to the last. -/
theorem joined {node : Node}
    (inside : Arranged boundary lo hi node.places node.parts node.bodies)
    (same : node.span = first.through last) (head : node.places.head? = some first)
    (tail : node.places.getLast? = some last) : Arranged boundary lo hi [node.span] [node] [] := by
  obtain ⟨laid, after, before, starts, stops⟩ := inside.laid.tighten head tail
  exact .node same after starts stops before ⟨laid, inside.settled, inside.nested⟩

/-- A token that is a node by itself. -/
theorem leaf {node : Node} (follows : node.span.Follows boundary lo) (before : node.span.stop ≤ hi)
    (inside : Arranged boundary node.span.start node.span.stop node.places node.parts node.bodies) :
    Arranged boundary lo hi [node.span] [node] [] :=
  .node rfl follows.after follows.starts follows.stops before inside

/-- An operator or a word in front of a node counts as a part of the whole. -/
theorem headed {node operand : Node} (follows : span.Follows boundary lo)
    (behind : Arranged boundary span.stop hi [operand.span] [operand] [])
    (same : node.span = span.through operand.span) (place : node.places = [operand.span])
    (part : node.parts = [operand]) (none : node.bodies = []) :
    Arranged boundary lo hi [node.span] [node] [] := by
  obtain ⟨laid, after, before, -, stops⟩ := behind.laid.tighten rfl rfl
  refine .node same follows.after follows.starts stops before ?_
  rw [place, part, none]
  have inside : Laid boundary span.start operand.span.stop [operand.span] :=
    laid.after (Nat.le_trans follows.ordered after)
  exact ⟨inside, behind.settled, nofun⟩

/-- A body on the same line adds nothing to its statement. -/
theorem inline {node : Node} (inside : Arranged boundary lo hi [node.span] [node] []) :
    Arranged boundary lo hi [node.span] [node] [.inline node] :=
  ⟨inside.laid, inside.settled, List.forall_mem_singleton.mpr trivial⟩

/-- A block without statements stands at the offset given for it. -/
theorem block {offset : Nat} {nodes : List Node}
    (inside : Arranged boundary lo hi (nodes.map Node.span) nodes [])
    (after : lo ≤ offset) (before : offset ≤ hi) (here : boundary offset) :
    Arranged boundary lo hi [Grammar.blockSpan offset nodes] nodes
      [.block nodes (Grammar.blockSpan offset nodes)] := by
  cases nodes with
  | nil =>
    exact ⟨⟨⟨after, Nat.le_refl _, here, here⟩, before⟩, nofun,
      List.forall_mem_singleton.mpr (Nat.le_refl offset)⟩
  | cons node nodes =>
    obtain ⟨tail, ends⟩ : ∃ tail, (node :: nodes).getLast? = some tail :=
      Option.isSome_iff_exists.mp (by simp)
    have place : Grammar.blockSpan offset (node :: nodes) = node.span.through tail.span := by
      rw [Grammar.blockSpan, ends]
      rfl
    obtain ⟨laid, after, before, starts, stops⟩ := inside.laid.tighten rfl
      (show ((node :: nodes).map Node.span).getLast? = some tail.span by
        rw [List.getLast?_map, ends]
        rfl)
    rw [place]
    exact ⟨⟨⟨after, laid.le, starts, stops⟩, before⟩, inside.settled,
      List.forall_mem_singleton.mpr laid⟩

end Arranged

namespace Phrase

/-- The spans of the nodes, bodies and names that the phrase consists of. -/
def places : Phrase → List Span
  | .expression node | .statement node => [node.span]
  | .elements nodes | .lines nodes => nodes.map Node.span
  | .params idents => idents.map Ident.span
  | .step node => node.toList.map Node.span
  | .closed inside | .body inside | .branch inside | .functionBody inside => [inside.span]
  | .branches condition first others => condition.span :: first.span :: others.places

def nodes : Phrase → List Node
  | .expression node | .statement node => [node]
  | .elements nodes | .lines nodes => nodes
  | .params _ => []
  | .step node => node.toList
  | .closed inside | .body inside | .branch inside | .functionBody inside => inside.statements
  | .branches condition first others => condition :: first.statements ++ others.nodes

def bodies : Phrase → List Body
  | .closed inside | .body inside | .branch inside | .functionBody inside => [inside]
  | .branches _ first others => first :: others.bodies
  | _ => []

end Phrase

theorem Branches.getLast?_places (others : Branches) (body : Body) :
    (body.span :: others.places).getLast? = some (others.lastBody body).span := by
  cases others with
  | none => rfl
  | otherwise last => rfl
  | elif condition body others =>
    rw [places, List.getLast?_cons_cons, List.getLast?_cons_cons]
    exact others.getLast?_places body

theorem Tokens.span_bounds {tokens : Tokens} (laid : Laid boundary lo hi (tokens.map Lexeme.span))
    (some : tokens ≠ []) :
    lo ≤ tokens.span.start ∧ tokens.span.start ≤ hi ∧ boundary tokens.span.start := by
  cases tokens with
  | nil => exact absurd rfl some
  | cons lexeme tokens =>
    obtain ⟨follows, others⟩ := laid
    exact ⟨follows.after, Nat.le_trans follows.ordered others.le, follows.starts⟩

theorem Arranged.names (idents : List Ident)
    (laid : Laid boundary lo hi ((idents.map Ident.lexeme).map Lexeme.span)) :
    Arranged boundary lo hi (idents.map Ident.span) [] [] := by
  rw [List.map_map] at laid
  exact ⟨laid, nofun, nofun⟩

/-- Tokens one behind the other write a phrase whose parts are one behind the other. -/
theorem Written.arranged {tokens : Tokens} {phrase : Phrase} (written : Written tokens phrase)
    (laid : Laid boundary lo hi (tokens.map Lexeme.span)) :
    Arranged boundary lo hi phrase.places phrase.nodes phrase.bodies := by
  induction written generalizing lo hi with
  | int | float | string | continuing | breaking | returnNothing =>
    exact .leaf laid.1 laid.2 (.nil laid.1.ordered)
  | access => exact .leaf laid.1 laid.2 (.name laid.1.here (.nil (Nat.le_refl _)))
  | assign _ right =>
    exact .joined (.name laid.1 ((right laid.2.2).after laid.2.1.le)) rfl rfl rfl
  | parens _ inside =>
    simp only [List.map_cons, List.map_append, Laid, Laid.append_iff] at laid
    obtain ⟨opens, mid, within, closes, below⟩ := laid
    exact ((inside within).after opens.le).before (Nat.le_trans closes.le below)
  | list _ inside =>
    simp only [List.map_cons, List.map_append, Laid, Laid.append_iff] at laid
    obtain ⟨opens, mid, within, closes, below⟩ := laid
    exact .node rfl opens.after opens.starts closes.stops below
      (((inside within).after opens.ordered).before closes.le)
  | unary _ _ behind | returnValue _ behind =>
    exact .headed laid.1 (behind laid.2) rfl rfl rfl rfl
  | binary _ _ _ before behind =>
    simp only [List.map_cons, List.map_append, Laid, Laid.append_iff] at laid
    obtain ⟨mid, left, operator, right⟩ := laid
    exact .joined ((before left).append ((behind right).after operator.le)) rfl rfl rfl
  | @call _ _ _ _ callee arguments _ _ before inside =>
    simp only [List.map_cons, List.map_append, Laid, Laid.append_iff] at laid
    obtain ⟨mid, left, opens, mid', within, closes, below⟩ := laid
    have bracketed := ((inside within).after opens.le).before (Nat.le_trans closes.le below)
    refine .joined ((before left).append bracketed) rfl rfl ?_
    rw [Node.places, List.getLast?_cons, List.getLast?_map]
    cases arguments.getLast? <;> rfl
  | @conditional _ _ condition body others _ behind =>
    refine .joined ((behind laid.2).after laid.1.le) rfl rfl ?_
    rw [Node.places, List.getLast?_cons_cons]
    exact others.getLast?_places body
  | forLoop _ _ _ _ start stop stride inside =>
    simp only [List.map_cons, List.map_append, Laid, Laid.append_iff] at laid
    obtain ⟨word, counter, sign, _, first, to', _, limit, _, step, then', within⟩ := laid
    have header := (start first).append (((stop limit).append ((stride step).append
      ((inside within).after then'.le))).after to'.le)
    exact .joined ((Arranged.name counter (header.after sign.le)).after word.le) rfl rfl
      List.getLast?_concat
  | whileLoop _ _ test inside =>
    simp only [List.map_cons, List.map_append, Laid, Laid.append_iff] at laid
    obtain ⟨word, mid, condition, then', within⟩ := laid
    exact .joined (((test condition).append ((inside within).after then'.le)).after word.le)
      rfl rfl rfl
  | repeatLoop _ _ _ number inside =>
    simp only [List.map_cons, List.map_append, Laid, Laid.append_iff] at laid
    obtain ⟨word, mid, count, times, mid', skipped, within⟩ := laid
    have looped := (inside within).after (Nat.le_trans times.le skipped.le)
    exact .joined (((number count).append looped).after word.le) rfl rfl rfl
  | @function _ _ _ name _ _ params _ _ _ names inside =>
    simp only [List.map_cons, List.map_append, Laid, Laid.append_iff] at laid
    obtain ⟨word, mid, named, opens, mid', listed, closes, within⟩ := laid
    have behind := ((names listed).append ((inside within).after closes.le)).after opens.le
    refine .joined (((Arranged.names _ named).append behind).after word.le) rfl ?_ ?_
    · cases name <;> cases params <;> rfl
    · simp [Node.places]
  | value _ inside | element _ inside | line _ inside | block _ inside => exact inside laid
  | noElement | noLine | noParam | noStep => exact .nil laid
  | elements _ _ first others =>
    simp only [List.map_cons, List.map_append, Laid, Laid.append_iff] at laid
    obtain ⟨mid, here, comma, rest⟩ := laid
    exact (first here).append ((others rest).after comma.le)
  | lines _ _ _ _ first others =>
    simp only [List.map_append, Laid.append_iff] at laid
    obtain ⟨mid, here, mid', newlines, rest⟩ := laid
    exact (first here).append ((others rest).after newlines.le)
  | param => exact .name laid.1 (.nil laid.2)
  | params _ others => exact .name laid.1 ((others laid.2.2).after laid.2.1.le)
  | step _ behind => exact (behind laid.2).after laid.1.le
  | closed _ _ inside =>
    obtain ⟨after, before, here⟩ := Tokens.span_bounds laid (by simp)
    simp only [List.map_cons, List.map_append, Laid, Laid.append_iff] at laid
    obtain ⟨mid, newlines, mid', within, closes, below⟩ := laid
    have lines := ((inside within).after newlines.le).before (Nat.le_trans closes.le below)
    exact lines.block after before here
  | inline _ _ inside =>
    simp only [List.map_append, Laid.append_iff] at laid
    obtain ⟨mid, within, skipped⟩ := laid
    exact ((inside within).before skipped.le).inline
  | branchBlock _ _ inside =>
    simp only [List.map_cons, List.map_append, Laid, Laid.append_iff] at laid
    obtain ⟨newline, mid, newlines, within⟩ := laid
    have below := Nat.le_trans newlines.le within.le
    exact ((inside within).after (Nat.le_trans newline.le newlines.le)).block newline.after
      (Nat.le_trans newline.ordered below) newline.starts
  | branchLine _ inside => exact (inside laid).inline
  | arrow _ behind => exact ((behind laid.2).after laid.1.le).inline
  | functionBlock _ _ inside =>
    simp only [List.map_append, Laid.append_iff] at laid
    obtain ⟨mid, skipped, within⟩ := laid
    exact (inside within).after skipped.le
  | lastBranch _ _ _ test inside =>
    simp only [List.map_cons, List.map_append, Laid, Laid.append_iff] at laid
    obtain ⟨mid, condition, then', mid', within, skipped⟩ := laid
    have behind := ((inside within).append (.nil skipped.le)).after then'.le
    exact (test condition).append behind
  | elif _ _ _ test inside others | otherwise _ _ _ test inside others =>
    simp only [List.map_cons, List.map_append, Laid, Laid.append_iff] at laid
    obtain ⟨mid, condition, then', mid', within, word, rest⟩ := laid
    have behind := ((inside within).append ((others rest).after word.le)).after then'.le
    exact (test condition).append behind

end Primer
