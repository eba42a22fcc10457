/-
The tree that a built condition shows.

A reader who knows nothing of conditions can find their operators again.  An object with the tag
of an operand under `type` is an operand, and the reader goes no further there; any other object
is an operator, with its sign under `type` and its operands under `operand`, or under
`left_operand` and `right_operand`.  Read in this way, what a condition is built to is a tree of
the same shape, with the same signs, down to what its operands are built to.

Operands may hold any JSON, and so also objects that look like operators.  They do no harm: no
operator has the tag of an operand, so the reader stops at the operand around them.
-/
import Testbed.Proofs.Missing

namespace Testbed

open Outcome

/-- Operators inside one another, with operands at the leaves. -/
inductive OperatorTree where
  | operand (tag : String) (value : Json)
  | unary (sign : String) (child : OperatorTree)
  | binary (sign : String) (left right : OperatorTree)

namespace OperatorTree

/-- How many operators stand inside one another. -/
def depth : OperatorTree → Nat
  | operand .. => 0
  | unary _ child => 1 + child.depth
  | binary _ left right => 1 + max left.depth right.depth

/-- The tree at an object with these members, of which `trees` says what each one shows. -/
def atObject? (members : Members) (trees : List (String × Option OperatorTree)) :
    Option OperatorTree :=
  match Keyed.get? "type" members with
  | some (.string tag) =>
    if tag ∈ Operand.tags then some (.operand tag (.object members))
    else
      match Keyed.get? "operand" trees, Keyed.get? "left_operand" trees,
        Keyed.get? "right_operand" trees with
      | some (some child), none, none => some (.unary tag child)
      | none, some (some left), some (some right) => some (.binary tag left right)
      | _, _, _ => none
  | _ => none

mutual

/-- The tree of operators that a value shows, if it shows one. -/
def ofJson? : Json → Option OperatorTree
  | .object members => atObject? members (ofMembers members)
  | .null => none
  | .boolean _ => none
  | .number _ => none
  | .string _ => none
  | .array _ => none

/-- What the members of an object show. -/
def ofMembers : List (String × Json) → List (String × Option OperatorTree)
  | [] => []
  | (k, v) :: rest => (k, ofJson? v) :: ofMembers rest

end

/-- At the tag of an operand nothing else is looked at. -/
theorem ofJson?_operand {members : Members} {tag : String}
    (htype : Keyed.get? "type" members = some (.string tag)) (htag : tag ∈ Operand.tags) :
    ofJson? (.object members) = some (.operand tag (.object members)) := by
  rw [ofJson?, atObject?, htype]
  exact if_pos htag

theorem ofJson?_unary {sign : String} {v : Json} {tree : OperatorTree}
    (hsign : sign ∉ Operand.tags) (hv : ofJson? v = some tree) :
    ofJson? (.object [("type", .string sign), ("operand", v)]) = some (.unary sign tree) := by
  simp [ofJson?, ofMembers, atObject?, Keyed.get?, hsign, hv]

theorem ofJson?_binary {sign : String} {l r : Json} {left right : OperatorTree}
    (hsign : sign ∉ Operand.tags) (hl : ofJson? l = some left) (hr : ofJson? r = some right) :
    ofJson? (.object [("type", .string sign), ("left_operand", l), ("right_operand", r)])
      = some (.binary sign left right) := by
  simp [ofJson?, ofMembers, atObject?, Keyed.get?, hsign, hl, hr]

end OperatorTree

mutual

/-- A tree has the shape and the signs of a condition, and its leaves are what the operands of the
condition are built to. -/
inductive Condition.ShownAs (d : Declarations) : Condition → OperatorTree → Prop
  | binary {operator : BinaryOperator} {left right : Expression} {l r : OperatorTree}
      (onLeft : Expression.ShownAs d left l) (onRight : Expression.ShownAs d right r) :
      Condition.ShownAs d (.binary operator left right) (.binary operator.tag l r)
  | negation {child : Expression} {tree : OperatorTree} (inside : Expression.ShownAs d child tree) :
      Condition.ShownAs d (.negation child) (.unary negationTag tree)

/-- A tree is that of a condition, or an operand as it is built. -/
inductive Expression.ShownAs (d : Declarations) : Expression → OperatorTree → Prop
  | operand {o : Operand} {v : Json} (built : o.build d = .ok v) :
      Expression.ShownAs d (.operand o) (.operand o.tag v)
  | condition {c : Condition} {tree : OperatorTree} (shown : Condition.ShownAs d c tree) :
      Expression.ShownAs d (.condition c) tree

end

variable {d : Declarations}

/-! ### Operands and operators -/

theorem Operand.tag_mem_tags (o : Operand) : o.tag ∈ Operand.tags := by
  cases o <;> simp [tag, tags]

/-- No operator has the tag of an operand. -/
theorem BinaryOperator.tag_notMem_tags (operator : BinaryOperator) :
    operator.tag ∉ Operand.tags := by
  cases operator <;> decide

theorem negationTag_notMem_tags : negationTag ∉ Operand.tags := by decide

/-- A built operand is read as an operand, whatever values there are in it. -/
theorem Operand.ofJson?_build {o : Operand} {v : Json} (h : o.build d = .ok v) :
    OperatorTree.ofJson? v = some (.operand o.tag v) := by
  have htag := o.tag_mem_tags
  cases o with
  | value token =>
      obtain ⟨w, -, h⟩ := bind_eq_ok.mp h
      cases pure_eq_ok.mp h
      exact OperatorTree.ofJson?_operand rfl htag
  | database name key property =>
      obtain ⟨w, -, h⟩ := bind_eq_ok.mp h
      cases pure_eq_ok.mp h
      exact OperatorTree.ofJson?_operand rfl htag
  | statistic measurement field =>
      obtain ⟨w, -, h⟩ := bind_eq_ok.mp h
      cases pure_eq_ok.mp h
      exact OperatorTree.ofJson?_operand rfl htag

/-! ### Trees -/

mutual

/-- **A built condition shows the tree of the condition.** -/
theorem Condition.shownAs_of_build : (c : Condition) → ∀ {v : Json}, c.build d = .ok v →
    ∃ tree, OperatorTree.ofJson? v = some tree ∧ c.ShownAs d tree
  | .binary operator left right => by
      intro h
      rw [Condition.build] at h
      obtain ⟨l, hl, h⟩ := bind_eq_ok.mp h
      obtain ⟨r, hr, h⟩ := bind_eq_ok.mp h
      cases pure_eq_ok.mp h
      obtain ⟨onLeft, hleft, hshownLeft⟩ := Expression.shownAs_of_build left hl
      obtain ⟨onRight, hright, hshownRight⟩ := Expression.shownAs_of_build right hr
      exact ⟨_, OperatorTree.ofJson?_binary operator.tag_notMem_tags hleft hright,
        .binary hshownLeft hshownRight⟩
  | .negation child => by
      intro h
      rw [Condition.build] at h
      obtain ⟨v, hv, h⟩ := bind_eq_ok.mp h
      cases pure_eq_ok.mp h
      obtain ⟨inside, hinside, hshown⟩ := Expression.shownAs_of_build child hv
      exact ⟨_, OperatorTree.ofJson?_unary negationTag_notMem_tags hinside, .negation hshown⟩

theorem Expression.shownAs_of_build : (e : Expression) → ∀ {v : Json}, e.build d = .ok v →
    ∃ tree, OperatorTree.ofJson? v = some tree ∧ e.ShownAs d tree
  | .operand o => by
      intro h
      rw [Expression.build] at h
      exact ⟨_, Operand.ofJson?_build h, .operand h⟩
  | .condition c => by
      intro h
      rw [Expression.build] at h
      obtain ⟨tree, hread, hshown⟩ := Condition.shownAs_of_build c h
      exact ⟨tree, hread, .condition hshown⟩

end

mutual

/-- A tree is as deep as the condition that it shows. -/
theorem Condition.ShownAs.depth_eq : (c : Condition) → ∀ {tree : OperatorTree},
    c.ShownAs d tree → tree.depth = c.depth
  | .binary operator left right => by
      intro h
      cases h with
      | binary onLeft onRight =>
          rw [OperatorTree.depth, Condition.depth, Expression.ShownAs.depth_eq left onLeft,
            Expression.ShownAs.depth_eq right onRight]
  | .negation child => by
      intro h
      cases h with
      | negation inside =>
          rw [OperatorTree.depth, Condition.depth, Expression.ShownAs.depth_eq child inside]

theorem Expression.ShownAs.depth_eq : (e : Expression) → ∀ {tree : OperatorTree},
    e.ShownAs d tree → tree.depth = e.depth
  | .operand o => by
      intro h
      cases h with
      | operand built => rw [OperatorTree.depth, Expression.depth]
  | .condition c => by
      intro h
      cases h with
      | condition shown =>
          rw [Expression.depth]
          exact Condition.ShownAs.depth_eq c shown

end

/--
**A condition is built if all its references are declared, and is refused for the first one that
is not; what it is built to shows its tree.**

References come from left to right.  The tree is read without knowing the condition, and it has
its shape, its signs and its depth, with the operands as they are built at the leaves.
-/
theorem Condition.build_shows (d : Declarations) (c : Condition) :
    (List.Forall₂ Token.RefersTo (c.tokens.flatMap Token.leaves) c.references
        ∧ (Succeeds (c.build d) ↔ ∀ leaf ∈ c.tokens.flatMap Token.leaves,
          leaf.Resolvable d.arguments (Keyed.keys d.constants))
        ∧ ∀ name, c.build d = .error ⟨name⟩
          ↔ d.FirstMissing (c.tokens.flatMap Token.leaves) name)
      ∧ ∀ v, c.build d = .ok v → ∃ tree, OperatorTree.ofJson? v = some tree
        ∧ c.ShownAs d tree ∧ tree.depth = c.depth := by
  have hleaves := c.refersTo_leaves
  have hfinds := c.finds_build d
  refine ⟨⟨hleaves, hfinds.succeeds_iff_resolvable hleaves,
    hfinds.error_iff_firstMissing hleaves⟩, fun v hv => ?_⟩
  obtain ⟨tree, hread, hshown⟩ := c.shownAs_of_build hv
  exact ⟨tree, hread, hshown, Condition.ShownAs.depth_eq c hshown⟩

/-- A value that looks like a negation. -/
def lookalike : Json :=
  .object [("type", .string "not"), ("operand", .object [("type", .string "value")])]

/-- Three operators inside one another, and an operand that holds the value above. -/
def notBothIdle : Condition :=
  .negation (.condition (.binary .and (.operand (.value (.literal lookalike)))
    (.condition (.binary .notEqual (.operand (.database "Agent" (.placeholder "agent") "status"))
      (.operand (.statistic (.constant "delay") "mean"))))))

/-- An argument and a constant. -/
def agentAndDelay : Declarations := .ofLists ["agent"] [("delay", .string "ping")]

/-- The operand is not taken for the negation that it looks like. -/
theorem notBothIdle_shows : ∃ v, notBothIdle.build agentAndDelay = .ok v
    ∧ ∃ tree, OperatorTree.ofJson? v = some tree ∧ notBothIdle.ShownAs agentAndDelay tree
      ∧ tree.depth = 3 := by
  have hbuild : Succeeds (notBothIdle.build agentAndDelay) := ⟨_, rfl⟩
  obtain ⟨v, hv⟩ := hbuild
  exact ⟨v, hv, (Condition.build_shows agentAndDelay notBothIdle).2 v hv⟩

end Testbed
