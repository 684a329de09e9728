import TypeWire.Node.Basic
import Mathlib

/-!
# The nodes in a node

A node is nested in an optional item, in fields and in variants; `Node.children` is what these have in
common, and `Node.induction` asks for nothing else. `Node.subnodes` lists a node with all below it, a
node before its children and children in their order. `Node.at?` goes down by places among children,
so that one can speak about the node that stands somewhere.
-/

namespace TypeWire.Node

/-- The items of a list, the fields of a record or the variants of a union, in order. -/
def children : Node → List Node
  | array _ items => items.toList
  | object _ fields => fields.map (·.2)
  | union _ variants _ => variants
  | string _ | number _ | boolean _ | null _ | enumeration _ _ | literal _ _ | lazy _ _
  | other _ _ => []

@[simp] theorem children_withHead (h : Head) (n : Node) : (n.withHead h).children = n.children := by
  cases n <;> rfl

/-- The names of the fields of a record. -/
def names : Node → List String
  | object _ fields => fields.map (·.1)
  | _ => []

@[simp] theorem names_withHead (h : Head) (n : Node) : (n.withHead h).names = n.names := by
  cases n <;> rfl

/-- A property of nodes holds of all if it holds of a node whose children have it. -/
theorem induction {motive : Node → Prop} (step : ∀ n, (∀ c ∈ n.children, motive c) → motive n)
    (n : Node) : motive n := by
  refine @Node.rec motive
    (fun items => ∀ c ∈ items.toList, motive c)
    (fun fields => ∀ c ∈ fields.map (·.2), motive c)
    (fun variants => ∀ c ∈ variants, motive c)
    (fun field => motive field.2)
    ?string ?number ?boolean ?null ?array ?object ?enumeration ?literal ?union ?lazy ?other
    ?noItem ?item ?noField ?field ?noVariant ?variant ?pair n
  case string | number | boolean | null => intro h; exact step _ (List.forall_mem_nil _)
  case enumeration | literal | lazy | other => intro h x; exact step _ (List.forall_mem_nil _)
  case array => intro h items ih; exact step _ ih
  case object => intro h fields ih; exact step _ ih
  case union => intro h variants discriminator ih; exact step _ ih
  case noItem | noField | noVariant => exact List.forall_mem_nil _
  case item => intro c hc; simpa using hc
  case field => intro f fs hf hfs; exact List.forall_mem_cons.2 ⟨hf, hfs⟩
  case variant => intro v vs hv hvs; exact List.forall_mem_cons.2 ⟨hv, hvs⟩
  case pair => intro name c hc; exact hc

mutual

/-- The node and all below it, a node before its children. -/
def subnodes : Node → List Node
  | array h items =>
    array h items :: match items with
      | none => []
      | some item => subnodes item
  | object h fields => object h fields :: subnodesOfFields fields
  | union h variants discriminator => union h variants discriminator :: subnodesOfVariants variants
  | n => [n]

def subnodesOfFields : List (String × Node) → List Node
  | [] => []
  | (_, n) :: rest => subnodes n ++ subnodesOfFields rest

def subnodesOfVariants : List Node → List Node
  | [] => []
  | n :: rest => subnodes n ++ subnodesOfVariants rest

end

theorem subnodesOfVariants_eq (variants : List Node) :
    subnodesOfVariants variants = variants.flatMap subnodes := by
  induction variants with
  | nil => rfl
  | cons n variants ih => rw [subnodesOfVariants, ih, List.flatMap_cons]

theorem subnodesOfFields_eq (fields : List (String × Node)) :
    subnodesOfFields fields = (fields.map (·.2)).flatMap subnodes := by
  induction fields with
  | nil => rfl
  | cons f fields ih => rw [subnodesOfFields, ih, List.map_cons, List.flatMap_cons]

theorem subnodes_eq (n : Node) : n.subnodes = n :: n.children.flatMap subnodes := by
  cases n with
  | array h items => cases items <;> simp [subnodes, children]
  | object h fields => rw [subnodes, subnodesOfFields_eq, children]
  | union h variants discriminator => rw [subnodes, subnodesOfVariants_eq, children]
  | _ => rfl

theorem self_mem_subnodes (n : Node) : n ∈ n.subnodes := by
  rw [subnodes_eq]
  exact List.mem_cons_self

theorem mem_subnodes_of_child {n c m : Node} (hc : c ∈ n.children) (hm : m ∈ c.subnodes) :
    m ∈ n.subnodes := by
  rw [subnodes_eq]
  exact List.mem_cons_of_mem _ (List.mem_flatMap.2 ⟨c, hc, hm⟩)

/-- The node at a place, which is given by the way to it. -/
def at? : Node → List Nat → Option Node
  | n, [] => some n
  | n, i :: path => n.children[i]? >>= (at? · path)

theorem at?_append (n : Node) (path path' : List Nat) :
    n.at? (path ++ path') = n.at? path >>= (at? · path') := by
  induction path generalizing n with
  | nil => rfl
  | cons i path ih =>
    rw [List.cons_append, at?, at?]
    cases n.children[i]? with
    | none => rfl
    | some c => exact ih c

theorem mem_subnodes_of_at? {n m : Node} {path : List Nat} (h : n.at? path = some m) :
    m ∈ n.subnodes := by
  induction path generalizing n with
  | nil =>
    obtain rfl := Option.some.inj h
    exact n.self_mem_subnodes
  | cons i path ih =>
    rw [at?] at h
    obtain ⟨c, hc, hm⟩ := Option.bind_eq_some_iff.1 h
    exact mem_subnodes_of_child (List.mem_of_getElem? hc) (ih hm)

end TypeWire.Node
