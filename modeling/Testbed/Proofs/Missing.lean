/-
Which reference cannot be resolved.

A token that cannot be resolved is told by a name, and so is a condition.  It is the name of
the first reference, from left to right, that is not declared where that reference looks for
it: the others may be missing as well, but nobody comes upon them.
-/
import Testbed.Proofs.Finding
import Testbed.Proofs.Resolution

namespace Testbed

open Outcome

namespace Token

mutual

/-- The references in a token, from left to right. -/
def leaves : Token → List Token
  | .literal _ => []
  | .placeholder name => [.placeholder name]
  | .constant name => [.constant name]
  | .argument name => [.argument name]
  | .list items => leavesOfItems items
  | .map entries => leavesOfEntries entries

/-- The references in a list of tokens. -/
def leavesOfItems : List Token → List Token
  | [] => []
  | t :: rest => leaves t ++ leavesOfItems rest

/-- The references in keyed tokens. -/
def leavesOfEntries : List (String × Token) → List Token
  | [] => []
  | (_, t) :: rest => leaves t ++ leavesOfEntries rest

end

/-- A reference to a name that is not declared where the reference looks for it. -/
inductive Missing (arguments constants : List String) : Token → String → Prop
  | placeholder {name : String} (noConstant : name ∉ constants) (noArgument : name ∉ arguments) :
      Missing arguments constants (.placeholder name) name
  | constant {name : String} (noConstant : name ∉ constants) :
      Missing arguments constants (.constant name) name
  | argument {name : String} (noArgument : name ∉ arguments) :
      Missing arguments constants (.argument name) name

theorem Missing.unique {arguments constants : List String} {t : Token} {name other : String}
    (h : t.Missing arguments constants name) (h' : t.Missing arguments constants other) :
    other = name := by
  cases h <;> cases h' <;> rfl

/-- A token is a reference to a name, in one of the three ways there are. -/
inductive RefersTo : Token → String → Prop
  | placeholder (name : String) : RefersTo (.placeholder name) name
  | constant (name : String) : RefersTo (.constant name) name
  | argument (name : String) : RefersTo (.argument name) name

/-- What is missing is not declared. -/
theorem Missing.not_resolvable {arguments constants : List String} {t : Token} {name : String}
    (h : t.Missing arguments constants name) : ¬ t.Resolvable arguments constants := by
  intro hresolvable
  cases h with
  | placeholder noConstant noArgument =>
      cases hresolvable with
      | placeholder known => exact known.elim noConstant noArgument
  | constant noConstant =>
      cases hresolvable with
      | constant known => exact noConstant known
  | argument noArgument =>
      cases hresolvable with
      | argument known => exact noArgument known

/-- A reference that is not declared is missing under the name it refers to. -/
theorem RefersTo.missing {arguments constants : List String} {t : Token} {name : String}
    (h : t.RefersTo name) (hnot : ¬ t.Resolvable arguments constants) :
    t.Missing arguments constants name := by
  cases h with
  | placeholder =>
      refine .placeholder (fun hconstant => ?_) fun hargument => ?_
      · exact hnot (.placeholder (Or.inl hconstant))
      · exact hnot (.placeholder (Or.inr hargument))
  | constant => exact .constant fun hconstant => hnot (.constant hconstant)
  | argument => exact .argument fun hargument => hnot (.argument hargument)

mutual

/-- **The leaves of a token are its references, in their order.** -/
theorem refersTo_leaves : (t : Token) → List.Forall₂ RefersTo t.leaves t.references
  | .literal _ => .nil
  | .placeholder name => .cons (.placeholder name) .nil
  | .constant name => .cons (.constant name) .nil
  | .argument name => .cons (.argument name) .nil
  | .list items => by
      rw [leaves, references]
      exact refersTo_leavesOfItems items
  | .map entries => by
      rw [leaves, references]
      exact refersTo_leavesOfEntries entries

theorem refersTo_leavesOfItems : (items : List Token) →
    List.Forall₂ RefersTo (leavesOfItems items) (referencesOfItems items)
  | [] => .nil
  | t :: rest => List.rel_append (refersTo_leaves t) (refersTo_leavesOfItems rest)

theorem refersTo_leavesOfEntries : (entries : List (String × Token)) →
    List.Forall₂ RefersTo (leavesOfEntries entries) (referencesOfEntries entries)
  | [] => .nil
  | (_, t) :: rest => List.rel_append (refersTo_leaves t) (refersTo_leavesOfEntries rest)

end

/-- A name is missing for fewer constants, if it is missing for more of them. -/
theorem Missing.mono {arguments constants fewer : List String} {t : Token} {name : String}
    (h : t.Missing arguments constants name) (hfewer : ∀ name ∈ fewer, name ∈ constants) :
    t.Missing arguments fewer name := by
  cases h with
  | placeholder noConstant noArgument =>
      exact .placeholder (fun hmem => noConstant (hfewer name hmem)) noArgument
  | constant noConstant => exact .constant fun hmem => noConstant (hfewer name hmem)
  | argument noArgument => exact .argument noArgument

/-- A reference is missing for a declaration table. -/
def Unknown (d : Declarations) (t : Token) (e : UnknownName) : Prop :=
  t.Missing d.arguments (Keyed.keys d.constants) e.name

section Tokens

variable (d : Declarations)

/-- One reference that is looked up: it is refused exactly if it is missing. -/
theorem finds_reference {t : Token} (name : String) {c : Prop}
    (hmissing : ∀ e, Unknown d t e ↔ c ∧ e = ⟨name⟩) {x : Except UnknownName Json}
    (hwrong : c → x = .error ⟨name⟩) (hright : ¬ c → ∃ v, x = .ok v) :
    Finds (fun p e => p = [] ∧ Unknown d t e) x :=
  (Finds.check hwrong hright).congr fun _ e => and_congr_right fun _ => (hmissing e).symm

theorem finds_resolveArgument (name : String) :
    Finds (fun p e => p = [] ∧ Unknown d (.argument name) e) (resolveArgument d name) := by
  refine finds_reference d name (c := name ∉ d.arguments) (fun e => ⟨?_, ?_⟩) ?_ ?_
  · intro h
    obtain ⟨e⟩ := e
    cases h with
    | argument noArgument => exact ⟨noArgument, rfl⟩
  · intro h
    obtain ⟨noArgument, rfl⟩ := h
    exact Missing.argument noArgument
  · intro h
    rw [resolveArgument, Declarations.isArgument, if_neg (by simpa using h)]
  · intro h
    exact (succeeds_resolveArgument d name).mpr (not_not.mp h)

theorem finds_resolveConstant (name : String) :
    Finds (fun p e => p = [] ∧ Unknown d (.constant name) e) (resolveConstant d name) := by
  refine finds_reference d name (c := name ∉ Keyed.keys d.constants) (fun e => ⟨?_, ?_⟩) ?_ ?_
  · intro h
    obtain ⟨e⟩ := e
    cases h with
    | constant noConstant => exact ⟨noConstant, rfl⟩
  · intro h
    obtain ⟨noConstant, rfl⟩ := h
    exact Missing.constant noConstant
  · intro h
    rw [resolveConstant, Declarations.constant?, Keyed.get?_eq_none_iff.mpr h]
  · intro h
    exact (succeeds_resolveConstant d name).mpr (not_not.mp h)

theorem finds_placeholder (name : String) :
    Finds (fun p e => p = [] ∧ Unknown d (.placeholder name) e)
      (resolve d (.placeholder name)) := by
  refine finds_reference d name (c := name ∉ Keyed.keys d.constants ∧ name ∉ d.arguments)
    (fun e => ⟨?_, ?_⟩) ?_ ?_
  · intro h
    obtain ⟨e⟩ := e
    cases h with
    | placeholder noConstant noArgument => exact ⟨⟨noConstant, noArgument⟩, rfl⟩
  · intro h
    obtain ⟨⟨noConstant, noArgument⟩, rfl⟩ := h
    exact Missing.placeholder noConstant noArgument
  · intro h
    rw [resolve, Declarations.constant?, Keyed.get?_eq_none_iff.mpr h.1]
    exact if_neg (by simpa [Declarations.isArgument] using h.2)
  · intro h
    refine (succeeds_resolve d (.placeholder name)).mpr (.placeholder ?_)
    exact or_iff_not_and_not.mpr h

mutual

/-- **A token is refused for the first reference in it that is missing.** -/
theorem finds_resolve : (t : Token) → Finds (Listed (Unknown d) t.leaves) (t.resolve d)
  | .literal value => .nil value
  | .placeholder name => .singleton (finds_placeholder d name)
  | .constant name => .singleton (finds_resolveConstant d name)
  | .argument name => .singleton (finds_resolveArgument d name)
  | .list items => (finds_resolveItems items).bind_pure Json.array
  | .map entries => (finds_resolveEntries entries).bind_pure fun members =>
      Json.object (Keyed.ofList members)

theorem finds_resolveItems : (items : List Token) →
    Finds (Listed (Unknown d) (leavesOfItems items)) (resolveItems d items)
  | [] => .nil []
  | t :: rest => (finds_resolve t).append fun v _ => (finds_resolveItems rest).bind_pure (v :: ·)

theorem finds_resolveEntries : (entries : List (String × Token)) →
    Finds (Listed (Unknown d) (leavesOfEntries entries)) (resolveEntries d entries)
  | [] => .nil []
  | (key, t) :: rest =>
    (finds_resolve t).append fun v _ => (finds_resolveEntries rest).bind_pure ((key, v) :: ·)

end

end Tokens

end Token

/-! ### The first one -/

/-- Of some references, the first one that is not declared where it looks is one to this name. -/
def Declarations.FirstMissing (d : Declarations) (leaves : List Token) (name : String) : Prop :=
  ∃ (k : Nat) (leaf : Token), leaves[k]? = some leaf
    ∧ leaf.Missing d.arguments (Keyed.keys d.constants) name
    ∧ ∀ j < k, ∀ earlier : Token, leaves[j]? = some earlier →
      earlier.Resolvable d.arguments (Keyed.keys d.constants)

section First

variable {d : Declarations} {leaves : List Token} {names : List String} {α : Type}
  {x : Except UnknownName α}

/-- With a reference nothing is wrong exactly if it is declared. -/
theorem Token.not_unknown_iff (h : List.Forall₂ Token.RefersTo leaves names) {leaf : Token}
    (hleaf : leaf ∈ leaves) :
    (∀ e, ¬ Token.Unknown d leaf e) ↔ leaf.Resolvable d.arguments (Keyed.keys d.constants) := by
  obtain ⟨name, -, hrefers⟩ := exists_of_mem_forall₂ h leaf hleaf
  refine ⟨?_, ?_⟩
  · intro hnone
    by_contra hnot
    exact hnone ⟨name⟩ (hrefers.missing hnot)
  · intro hresolvable e he
    exact he.not_resolvable hresolvable

/-- What goes through references succeeds exactly if all of them are declared. -/
theorem Outcome.Finds.succeeds_iff_resolvable (hfinds : Finds (Listed (Token.Unknown d) leaves) x)
    (h : List.Forall₂ Token.RefersTo leaves names) :
    Succeeds x ↔ ∀ leaf ∈ leaves, leaf.Resolvable d.arguments (Keyed.keys d.constants) :=
  hfinds.succeeds_iff.trans (forall₂_congr fun _ hleaf => Token.not_unknown_iff h hleaf)

/-- What goes through references is refused for the first one that is not declared. -/
theorem Outcome.Finds.error_iff_firstMissing (hfinds : Finds (Listed (Token.Unknown d) leaves) x)
    (h : List.Forall₂ Token.RefersTo leaves names) (name : String) :
    x = .error ⟨name⟩ ↔ d.FirstMissing leaves name := by
  rw [hfinds.error_iff fun leaf e e' he he' => congrArg UnknownName.mk (he.unique he')]
  refine exists_congr fun k => exists_congr fun leaf => and_congr_right fun _ =>
    and_congr_right fun _ => forall₂_congr fun j _ => forall₂_congr fun earlier hj => ?_
  exact Token.not_unknown_iff h (List.mem_of_getElem? hj)

end First

/-! ### Conditions -/

theorem Operand.finds_build (d : Declarations) (o : Operand) :
    Finds (Listed (Token.Unknown d) o.token.leaves) (o.build d) := by
  cases o with
  | value token => exact (token.finds_resolve d).bind_pure _
  | database name key property => exact (key.finds_resolve d).bind_pure _
  | statistic measurement field => exact (measurement.finds_resolve d).bind_pure _

mutual

/-- **A condition is refused for the first reference at its leaves that is missing.** -/
theorem Condition.finds_build (d : Declarations) : (c : Condition) →
    Finds (Listed (Token.Unknown d) (c.tokens.flatMap Token.leaves)) (c.build d)
  | .binary operator left right => by
      rw [Condition.tokens, List.flatMap_append, Condition.build]
      exact (Expression.finds_build d left).append fun l _ =>
        (Expression.finds_build d right).bind_pure _
  | .negation child => by
      rw [Condition.tokens, Condition.build]
      exact (Expression.finds_build d child).bind_pure _

theorem Expression.finds_build (d : Declarations) : (e : Expression) →
    Finds (Listed (Token.Unknown d) (e.tokens.flatMap Token.leaves)) (e.build d)
  | .operand o => by
      rw [Expression.tokens, List.flatMap_singleton, Expression.build]
      exact o.finds_build d
  | .condition c => by
      rw [Expression.tokens, Expression.build]
      exact Condition.finds_build d c

end

theorem Operand.references_eq (o : Operand) : o.references = o.token.references := by
  cases o <;> rfl

mutual

/-- **The leaves of the tokens of a condition are its references, in their order.** -/
theorem Condition.refersTo_leaves : (c : Condition) →
    List.Forall₂ Token.RefersTo (c.tokens.flatMap Token.leaves) c.references
  | .binary operator left right => by
      rw [Condition.tokens, List.flatMap_append, Condition.references]
      exact List.rel_append (Expression.refersTo_leaves left) (Expression.refersTo_leaves right)
  | .negation child => by
      rw [Condition.tokens, Condition.references]
      exact Expression.refersTo_leaves child

theorem Expression.refersTo_leaves : (e : Expression) →
    List.Forall₂ Token.RefersTo (e.tokens.flatMap Token.leaves) e.references
  | .operand o => by
      rw [Expression.tokens, List.flatMap_singleton, Expression.references, o.references_eq]
      exact o.token.refersTo_leaves
  | .condition c => by
      rw [Expression.tokens, Expression.references]
      exact Condition.refersTo_leaves c

end

end Testbed
