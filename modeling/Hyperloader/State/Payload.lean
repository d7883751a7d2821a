/-
Module: Hyperloader.State.Payload
Purpose: What the checkpoint formats of the iterable and the torch-compatible loaders read of
  their payloads in common, and that a fingerprint reads back what it wrote.
Trusted boundary: json.dumps, hashlib.sha256 and `==` are parameters.
Main exports:
  readInteger, readOptionalBytes, ContractFingerprint.fromDict_entries,
  requireFingerprintMatch_self
-/
import Hyperloader.State.MapState

namespace Hyperloader.State

open Foundations

variable {Other : Type} {library : Library Other}

/-! ### Reading one key -/

/-- A nonnegative integer of a payload whose errors name its `owner`. -/
def readInteger (owner : String) (payload : List (String × Object Other)) (key : String)
    (maximum : Option Nat) : Except Raised Nat :=
  match Object.get payload key with
  | .integer value =>
      if value < 0 then .error (.valueError s!"{owner} {key} must be nonnegative")
      else if maximum.any fun limit => limit < value.toNat then
        .error (.valueError s!"{owner} {key} exceeds its supported range")
      else .ok value.toNat
  | _ => .error (.typeError s!"{owner} {key} must be an integer")

/-- `_optional_bytes` -/
def readOptionalBytes (owner : String) (payload : List (String × Object Other)) (key : String) :
    Except Raised (Option (List UInt8)) :=
  match Object.get payload key with
  | .none => .ok none
  | .bytes value => .ok (some value)
  | _ => .error (.typeError s!"{owner} {key} must be bytes or None")

/-- An optional byte string as a payload holds it. -/
def Object.ofBytes : Option (List UInt8) → Object Other
  | .none => .none
  | .some value => .bytes value

variable {owner key : String} {payload : List (String × Object Other)}

theorem readInteger_le {limit value : Nat}
    (read : readInteger owner payload key (some limit) = .ok value) : value ≤ limit := by
  unfold readInteger at read
  split at read
  · rw [if_error_ok_iff, if_error_ok_iff] at read
    obtain ⟨-, within, same⟩ := read
    cases same
    simpa using within
  · cases read

theorem readInteger_of_get {maximum : Option Nat} {value : Nat}
    (entry : Object.get payload key = .integer value) (within : ∀ limit ∈ maximum, value ≤ limit) :
    readInteger owner payload key maximum = .ok value := by
  rw [readInteger, entry]
  have inside : ¬ (maximum.any fun limit => limit < value) = true := by
    cases maximum with
    | none => simp
    | some limit => simpa using within limit rfl
  simp [inside]

theorem readOptionalBytes_of_get {value : Option (List UInt8)}
    (entry : Object.get payload key = .ofBytes value) :
    readOptionalBytes owner payload key = .ok value := by
  rw [readOptionalBytes, entry]
  cases value <;> rfl

/-! ### Fingerprints -/

namespace ContractFingerprint

/-- Fingerprints with the same elements are one. -/
theorem eq_of_elements {one two : ContractFingerprint library}
    (same : one.elements = two.elements) : one = two := by
  obtain ⟨elements, unique, document, canonical⟩ := one
  obtain ⟨others, otherUnique, otherDocument, otherCanonical⟩ := two
  cases same
  cases Option.some.inj (canonical.symm.trans otherCanonical)
  rfl

def entries (fingerprint : ContractFingerprint library) : List (String × Object Other) :=
  [("digest", .text fingerprint.digest),
    ("elements", .list (fingerprint.elements.map fun element =>
      .dict [("path", .text element.path), ("value", element.value)]))]

theorem readElement_written (element : FingerprintElement Other) :
    readElement (.dict [("path", .text element.path), ("value", element.value)]) =
      .ok element := by
  have read : Object.get [("path", Object.text element.path), ("value", element.value)] "path" =
      .text element.path := rfl
  rw [readElement, read]
  dsimp only
  rw [dif_pos element.named]
  rfl

/-- A fingerprint is built again from its elements. -/
theorem build_elements (fingerprint : ContractFingerprint library) :
    build fingerprint.elements = .ok fingerprint := by
  have canonical := fingerprint.canonical
  rw [build, dif_pos fingerprint.unique]
  split
  · exact congrArg Except.ok (eq_of_elements rfl)
  · rename_i impossible
    rw [canonical] at impossible
    cases impossible

/-- A fingerprint reads back from its public representation. -/
theorem fromDict_entries (texts : ∀ text : String, library.equal (.text text) (.text text) = true)
    (fingerprint : ContractFingerprint library) :
    fromDict fingerprint.entries = .ok fingerprint := by
  have listed : Object.get fingerprint.entries "elements" = .list (fingerprint.elements.map
      fun element => .dict [("path", .text element.path), ("value", element.value)]) := rfl
  have read : (fingerprint.elements.map fun element => Object.dict
      [("path", .text element.path), ("value", element.value)]).mapM readElement =
        .ok fingerprint.elements := by
    have written := @mapM_map_ok _ _ _ _ (fun element : FingerprintElement Other => Object.dict
      [("path", .text element.path), ("value", element.value)]) readElement id
        fingerprint.elements fun element _ => readElement_written element
    rwa [List.map_id] at written
  rw [fromDict, listed]
  dsimp only
  rw [read]
  show (build fingerprint.elements >>= fun built =>
    if library.equal (Object.get fingerprint.entries "digest") (.text built.digest) then
      .ok built
    else .error (.valueError WRONG_DIGEST)) = _
  rw [build_elements]
  exact if_pos (texts _)

end ContractFingerprint

theorem sameValue_self {value : Option (Object Other)}
    (equal : ∀ some, value = .some some → library.equal some some = true) :
    sameValue library value value = true := by
  cases value with
  | none => rfl
  | some value => exact equal value rfl

/-- A fingerprint matches itself unless one of its values is not equal to itself. -/
theorem requireFingerprintMatch_self {fingerprint : ContractFingerprint library}
    (equal : ∀ element ∈ fingerprint.elements,
      library.equal element.value element.value = true) :
    requireFingerprintMatch library fingerprint fingerprint = .ok () := by
  have unchanged : ∀ paths : List String, paths.find? (fun path =>
      !sameValue library (fingerprint.lookup path) (fingerprint.lookup path)) = none := by
    intro paths
    refine List.find?_eq_none.mpr fun path _ => ?_
    rw [sameValue_self]
    · decide
    · intro value found
      obtain ⟨element, listed, rfl⟩ := Option.map_eq_some_iff.mp found
      exact equal element (List.mem_of_find?_eq_some listed)
  rw [requireFingerprintMatch, unchanged]

end Hyperloader.State
