/-
Module: Hyperloader.Arena.Registry
Purpose: The registry of named regions: the grammar of region names, the records appended one to
  a line, the snapshot read back from the file, and what a record torn by a crash costs.
Trusted boundary: `SerdeJson` says what the JSON library of the source is documented to do.
Main exports:
  RegistryEntry, validateEntry, SerdeJson, parseSnapshot, RegistryFile.append,
  parse_records, crash_atomic_iff, torn_record_lost
-/
import Hyperloader.Foundations.ByteFrame
import Hyperloader.Foundations.JsonText
import Mathlib.Data.List.Nodup

namespace Hyperloader.Arena

open Foundations
open Foundations.JsonText

abbrev Bytes := List UInt8

/-- The bytes of a string. -/
def utf8 (text : String) : Bytes := text.toByteArray.data.toList

/-! ### Names of regions -/

def namePrefix : Bytes := utf8 "/hl"
def base32 : Bytes := utf8 "abcdefghijklmnopqrstuvwxyz234567"
def tokenNameChars : Nat := 18
def sequenceNameChars : Nat := 2
def maxRegionSequence : Nat := (1 <<< (sequenceNameChars * 5)) - 1
def tokenBytes : Nat := 16

abbrev RegionToken := Frame tokenBytes

def hexDigit (byte : UInt8) : Option Nat :=
  if digit byte then some (byte.toNat - 0x30)
  else if 0x61 ≤ byte ∧ byte ≤ 0x66 then some (byte.toNat - 0x57)
  else if 0x41 ≤ byte ∧ byte ≤ 0x46 then some (byte.toNat - 0x37)
  else none

def hexNibble (value : Nat) : UInt8 :=
  UInt8.ofNat (if value < 10 then 0x30 + value else 0x57 + value)

/-- `u8::from_str_radix(text, 16)`, which lets a plus sign stand before the digits. -/
def fromStrRadix (text : Bytes) : Option UInt8 :=
  let digits := if text.head? = some 0x2B then text.tail else text
  if digits = [] then none
  else
    (digits.foldlM (fun value byte => do
      let digit ← hexDigit byte
      if value * 16 + digit < 256 then some (value * 16 + digit) else none) 0).map UInt8.ofNat

def RegionToken.fromHex (encoded : Bytes) : Option RegionToken :=
  if encoded.length ≠ tokenBytes * 2 ∨ ¬encoded.all (· < 128) then none
  else do
    let bytes ← (List.range tokenBytes).mapM fun index =>
      fromStrRadix ((encoded.drop (index * 2)).take 2)
    some (Vector.ofFn fun index => bytes.getD index 0)

def encodeBase32 (value width : Nat) : Bytes :=
  ((List.range width).map fun index => base32.getD ((value >>> (5 * index)) &&& 31) 0).reverse

def decodeBase32 (input : Bytes) : Option Nat :=
  input.foldlM (fun value byte => do
    let digit ← base32.findIdx? (· == byte)
    if value * 32 + digit < 2 ^ 128 then some (value * 32 + digit) else none) 0

/-- The name of a region; none past the last sequence number. -/
def RegionName.new (token : RegionToken) (sequence : Nat) : Option Bytes :=
  if maxRegionSequence < sequence then none
  else
    let lowBits := fromLittleEndian token.toList &&& ((1 <<< 90) - 1)
    some (namePrefix ++ encodeBase32 lowBits tokenNameChars ++
      encodeBase32 sequence sequenceNameChars)

def RegionName.matchesToken (name : Bytes) (token : RegionToken) : Bool :=
  match decodeBase32 (name.drop (name.length - sequenceNameChars)) with
  | none => false
  | some sequence => RegionName.new token (sequence % 2 ^ 16) == some name

def RegionName.fromRegistry (value : Bytes) (token : RegionToken) : Option Bytes :=
  if RegionName.matchesToken value token then some value else none

/-! ### Records -/

structure RegistryEntry where
  name : String
  token : String
  pid : UInt32
  bootId : String
  procStart : UInt64
  deriving DecidableEq

def RegistryEntry.validatedName (entry : RegistryEntry) : Option Bytes := do
  let token ← RegionToken.fromHex (utf8 entry.token)
  RegionName.fromRegistry (utf8 entry.name) token

inductive RegistryError where
  | invalidEntry
  deriving DecidableEq

def validateEntry (entry : RegistryEntry) : Except RegistryError Unit :=
  if entry.pid = 0 ∨ entry.bootId.isEmpty ∨ entry.procStart = 0 ∨
      entry.validatedName.isNone then
    .error .invalidEntry
  else .ok ()

def RegistryEntry.Valid (entry : RegistryEntry) : Prop := validateEntry entry = .ok ()

instance (entry : RegistryEntry) : Decidable entry.Valid :=
  inferInstanceAs (Decidable (_ = _))

def newline : UInt8 := 0x0A

/-- serde_json on the entries.  `to_vec` writes one JSON value without line ends, an object whose
members stand in the order of the fields; `from_slice` accepts nothing but JSON texts, and reads
back what was written. -/
structure SerdeJson where
  toVec : RegistryEntry → Bytes
  fromSlice : Bytes → Option RegistryEntry
  object : ∀ entry, Derives .value (toVec entry)
  compact : ∀ entry, newline ∉ toVec entry
  opens : ∀ entry, ∃ rest, toVec entry = openBrace :: quote :: (utf8 "name" ++ rest)
  text : ∀ {line : Bytes} {entry : RegistryEntry}, fromSlice line = some entry → Text line
  reads : ∀ entry : RegistryEntry, fromSlice (toVec entry) = some entry

/-- The line appended for an entry. -/
def record (json : SerdeJson) (entry : RegistryEntry) : Bytes := json.toVec entry ++ [newline]

/-! ### Snapshots -/

structure RegistryIssue where
  line : Nat
  message : String
  deriving DecidableEq

structure RegistrySnapshot where
  entries : List RegistryEntry
  issues : List RegistryIssue
  deriving DecidableEq

/-- The state of the loop over the lines. -/
structure Reader where
  snapshot : RegistrySnapshot
  names : List String
  lineNumber : Nat

def Reader.start : Reader := { snapshot := ⟨[], []⟩, names := [], lineNumber := 1 }

def Reader.issue (reader : Reader) (message : String) : RegistrySnapshot :=
  { reader.snapshot with issues := reader.snapshot.issues ++ [⟨reader.lineNumber, message⟩] }

/-- One whole line. -/
def Reader.line (json : SerdeJson) (reader : Reader) (line : Bytes) : Reader :=
  match json.fromSlice line with
  | some entry =>
      if validateEntry entry = .ok () ∧ entry.name ∉ reader.names then
        { snapshot := { reader.snapshot with entries := reader.snapshot.entries ++ [entry] }
          names := entry.name :: reader.names
          lineNumber := reader.lineNumber + 1 }
      else
        { reader with
          snapshot := reader.issue "registry entry is malformed or duplicated"
          lineNumber := reader.lineNumber + 1 }
  | none =>
      { reader with
        snapshot := reader.issue "registry line is not valid JSON"
        lineNumber := reader.lineNumber + 1 }

/-- The lines still to be read. -/
def Reader.parse (json : SerdeJson) (reader : Reader) (bytes : Bytes) : RegistrySnapshot :=
  if bytes = [] then reader.snapshot
  else
    match position : bytes.findIdx? (· == newline) with
    | none => reader.issue "registry ends with an incomplete line"
    | some relativeEnd =>
        (reader.line json (bytes.take relativeEnd)).parse json (bytes.drop (relativeEnd + 1))
termination_by bytes.length
decreasing_by
  have inside := (List.findIdx?_eq_some_iff_findIdx_eq.mp position).1
  rw [List.length_drop]
  omega

def parseSnapshot (json : SerdeJson) (bytes : Bytes) : RegistrySnapshot :=
  Reader.start.parse json bytes

/-! ### The file -/

/-- The data file, if there is one. -/
abbrev RegistryFile := Option Bytes

namespace RegistryFile

/-- Bytes written at the end of the file, which is created where it is missing. -/
def extend (file : RegistryFile) (bytes : Bytes) : RegistryFile := some (file.getD [] ++ bytes)

def append (json : SerdeJson) (file : RegistryFile) (entry : RegistryEntry) :
    Except RegistryError RegistryFile := do
  validateEntry entry
  return file.extend (record json entry)

def read (json : SerdeJson) : RegistryFile → RegistrySnapshot
  | none => ⟨[], []⟩
  | some bytes => parseSnapshot json bytes

end RegistryFile

/-! ### Lines -/

variable {json : SerdeJson} {bytes line : Bytes}

theorem findIdx_newline (whole : newline ∉ line) (rest : Bytes) :
    (line ++ newline :: rest).findIdx? (· == newline) = some line.length := by
  rw [List.findIdx?_append, List.findIdx?_eq_none_iff.mpr fun byte member => by
    rw [beq_eq_false_iff_ne]
    rintro rfl
    exact whole member]
  simp [List.findIdx?_cons]

theorem parse_line (reader : Reader) (whole : newline ∉ line) (rest : Bytes) :
    reader.parse json (line ++ newline :: rest) = (reader.line json line).parse json rest := by
  rw [Reader.parse, if_neg (by simp)]
  split
  · rename_i missing
    rw [findIdx_newline whole] at missing
    exact nomatch missing
  · rename_i relativeEnd position
    rw [findIdx_newline whole] at position
    cases Option.some.inj position
    rw [List.take_left, ← List.drop_drop, List.drop_left]
    rfl

theorem parse_nil (reader : Reader) : reader.parse json [] = reader.snapshot := by
  rw [Reader.parse, if_pos rfl]

theorem parse_incomplete (reader : Reader) (nonempty : bytes ≠ []) (torn : newline ∉ bytes) :
    reader.parse json bytes = reader.issue "registry ends with an incomplete line" := by
  rw [Reader.parse, if_neg nonempty]
  split
  · rfl
  · rename_i relativeEnd position
    obtain ⟨inside, isNewline, _⟩ := List.findIdx?_eq_some_iff_getElem.mp position
    exact absurd (beq_iff_eq.mp isNewline ▸ List.getElem_mem inside) torn

theorem parse_records (reader : Reader) (entries : List RegistryEntry) (rest : Bytes) :
    reader.parse json (entries.flatMap (record json) ++ rest) =
      (entries.foldl (fun reader entry => reader.line json (json.toVec entry)) reader).parse json
        rest := by
  induction entries generalizing reader with
  | nil => rfl
  | cons entry entries ih =>
      rw [List.flatMap_cons, record, List.append_assoc, List.append_assoc, List.singleton_append,
        parse_line reader (json.compact entry), ih]
      rfl

/-! ### What a reader has reported -/

/-- Entries of one name are one entry. -/
def Unambiguous (entries : List RegistryEntry) : Prop :=
  ∀ first ∈ entries, ∀ second ∈ entries, first.name = second.name → first = second

/-- A reader that has gone through the records of some entries: it reports the first of every
name. -/
structure Reader.Read (reader : Reader) (entries : List RegistryEntry) : Prop where
  sound : ∀ entry ∈ reader.snapshot.entries, entry ∈ entries
  unique : (reader.snapshot.entries.map RegistryEntry.name).Nodup
  names : ∀ name, name ∈ reader.names ↔ name ∈ reader.snapshot.entries.map RegistryEntry.name
  covers : ∀ entry ∈ entries, entry.name ∈ reader.names

theorem read_start : Reader.start.Read [] :=
  ⟨nofun, List.nodup_nil, fun _ => Iff.rfl, nofun⟩

theorem Reader.Read.record {reader : Reader} {entries : List RegistryEntry}
    (read : reader.Read entries) {entry : RegistryEntry} (valid : entry.Valid) :
    (reader.line json (json.toVec entry)).Read (entries ++ [entry]) := by
  have reads := json.reads entry
  by_cases known : entry.name ∈ reader.names
  · have line : reader.line json (json.toVec entry) =
        { reader with
          snapshot := reader.issue "registry entry is malformed or duplicated"
          lineNumber := reader.lineNumber + 1 } := by
      rw [Reader.line, reads]
      exact if_neg fun fresh => fresh.2 known
    rw [line]
    refine ⟨fun other member => List.mem_append_left _ (read.sound other member), read.unique,
      read.names, fun other member => ?_⟩
    rcases List.mem_append.mp member with old | new
    · exact read.covers other old
    · exact List.mem_singleton.mp new ▸ known
  · have line : reader.line json (json.toVec entry) =
        { snapshot := { reader.snapshot with entries := reader.snapshot.entries ++ [entry] }
          names := entry.name :: reader.names
          lineNumber := reader.lineNumber + 1 } := by
      rw [Reader.line, reads]
      exact if_pos ⟨valid, known⟩
    rw [line]
    refine ⟨fun other member => ?_, ?_, fun name => ?_, fun other member => ?_⟩
    · rcases List.mem_append.mp member with old | new
      · exact List.mem_append_left _ (read.sound other old)
      · exact List.mem_append_right _ new
    · rw [List.map_append]
      apply List.Nodup.append read.unique (List.nodup_singleton _)
      intro name old new
      rw [List.mem_singleton] at new
      exact known ((read.names _).mpr (new ▸ old))
    · rw [List.mem_cons, read.names, List.map_append, List.mem_append, List.map_singleton,
        List.mem_singleton, or_comm]
    · rcases List.mem_append.mp member with old | new
      · exact List.mem_cons_of_mem _ (read.covers other old)
      · exact List.mem_singleton.mp new ▸ List.mem_cons_self

theorem Reader.Read.refused {reader : Reader} {entries : List RegistryEntry}
    (read : reader.Read entries) {line : Bytes} (unread : json.fromSlice line = none) :
    (reader.line json line).Read entries := by
  rw [Reader.line, unread]
  exact ⟨read.sound, read.unique, read.names, read.covers⟩

theorem Reader.Read.records {reader : Reader} {before : List RegistryEntry}
    (read : reader.Read before) (entries : List RegistryEntry)
    (valid : ∀ entry ∈ entries, entry.Valid) :
    (entries.foldl (fun reader entry => reader.line json (json.toVec entry)) reader).Read
      (before ++ entries) := by
  induction entries generalizing reader before with
  | nil => exact (List.append_nil before).symm ▸ read
  | cons entry entries ih =>
      have first := @Reader.Read.record json _ _ read entry (valid entry List.mem_cons_self)
      have rest := ih first fun other member =>
        valid other (List.mem_cons_of_mem _ member)
      rwa [List.append_assoc, List.singleton_append] at rest

variable {reader : Reader}

/-- A reader reports every entry exactly when no two of them share a name. -/
theorem Reader.Read.all_iff {entries : List RegistryEntry} (read : reader.Read entries) :
    (∀ entry ∈ entries, entry ∈ reader.snapshot.entries) ↔ Unambiguous entries := by
  constructor
  · intro all first isFirst second isSecond same
    exact List.inj_on_of_nodup_map read.unique (all first isFirst) (all second isSecond) same
  · intro unambiguous entry member
    obtain ⟨reported, isReported, same⟩ :=
      List.mem_map.mp ((read.names _).mp (read.covers entry member))
    exact unambiguous reported (read.sound reported isReported) entry member same ▸ isReported

theorem issues_line (line : Bytes) (issues : reader.snapshot.issues ≠ []) :
    (reader.line json line).snapshot.issues ≠ [] := by
  rw [Reader.line]
  split
  · split
    · exact issues
    · exact List.append_ne_nil_of_left_ne_nil issues _
  · exact List.append_ne_nil_of_left_ne_nil issues _

theorem issues_records (entries : List RegistryEntry) (issues : reader.snapshot.issues ≠ []) :
    (entries.foldl (fun reader entry => reader.line json (json.toVec entry)) reader).snapshot.issues ≠
      [] := by
  induction entries generalizing reader with
  | nil => exact issues
  | cons entry entries ih =>
      exact ih (issues_line (json.toVec entry) issues)

theorem issues_refused (reader : Reader) (unread : json.fromSlice line = none) :
    (reader.line json line).snapshot.issues ≠ [] := by
  rw [Reader.line, unread]
  exact List.concat_ne_nil _ _

/-! ### A crash in the middle of an append -/

namespace RegistryFile

def appendAll (json : SerdeJson) (file : RegistryFile) (entries : List RegistryEntry) :
    Except RegistryError RegistryFile :=
  entries.foldlM (append json) file

/-- Appends, then one that a crash cut short after the bytes `torn`, then more appends. -/
def history (json : SerdeJson) (before : List RegistryEntry) (torn : Bytes)
    (after : List RegistryEntry) : Except RegistryError RegistryFile := do
  let file ← appendAll json none before
  appendAll json (file.extend torn) after

theorem appendAll_eq {entries : List RegistryEntry} (valid : ∀ entry ∈ entries, entry.Valid)
    (file : RegistryFile) :
    appendAll json file entries =
      .ok (if entries = [] then file else file.extend (entries.flatMap (record json))) := by
  induction entries generalizing file with
  | nil => rfl
  | cons entry entries ih =>
      have first : append json file entry = .ok (file.extend (record json entry)) := by
        rw [append, show validateEntry entry = .ok () from valid entry List.mem_cons_self]
        rfl
      have rest := ih
        (fun other member => valid other (List.mem_cons_of_mem _ member))
        (file.extend (record json entry))
      rw [appendAll, List.foldlM_cons, first]
      change appendAll json (file.extend (record json entry)) entries = _
      rw [rest, if_neg (List.cons_ne_nil _ _), List.flatMap_cons]
      split
      · rename_i none
        rw [none, List.flatMap_nil, List.append_nil]
      · rw [extend, extend, extend, Option.getD_some, List.append_assoc]

theorem history_eq {before after : List RegistryEntry}
    (valid : ∀ entry ∈ before ++ after, entry.Valid) (torn : Bytes) :
    history json before torn after =
      .ok (some (before.flatMap (record json) ++ (torn ++ after.flatMap (record json)))) := by
  have validBefore := fun entry member => valid entry (List.mem_append_left after member)
  have validAfter := fun entry member => valid entry (List.mem_append_right before member)
  have start : (if before = [] then (none : RegistryFile)
      else extend none (before.flatMap (record json))).getD [] = before.flatMap (record json) := by
    split
    · rename_i none
      rw [none]
      rfl
    · rfl
  rw [history, appendAll_eq validBefore]
  change appendAll json _ after = _
  rw [appendAll_eq validAfter]
  split
  · rename_i none
    rw [none, extend, start, List.flatMap_nil, List.append_nil]
  · rw [extend, extend, Option.getD_some, start, List.append_assoc]

end RegistryFile

variable {interrupted : RegistryEntry}

/-- What a crash leaves of a record it cuts short holds no line end. -/
theorem newline_notMem_torn {torn : Bytes} (proper : torn <+: record json interrupted)
    (short : torn ≠ record json interrupted) : newline ∉ torn := by
  have inRecord : torn <+: json.toVec interrupted := by
    rcases List.prefix_concat_iff.mp proper with whole | inside
    · exact absurd whole short
    · exact inside
  exact fun member => json.compact interrupted (inRecord.subset member)

/-- The line a torn record forms with the record after it is no JSON text. -/
theorem fromSlice_torn {torn : Bytes} (proper : torn <+: record json interrupted) (nonempty : torn ≠ [])
    (following : RegistryEntry) : json.fromSlice (torn ++ json.toVec following) = none := by
  obtain ⟨key, written⟩ := json.opens following
  obtain ⟨rest, starts⟩ : ∃ rest, torn = openBrace :: rest := by
    cases torn with
    | nil => exact absurd rfl nonempty
    | cons byte rest =>
        obtain ⟨own, begins⟩ := json.opens interrupted
        rw [record, begins] at proper
        have same : byte = openBrace := (List.cons_prefix_cons.mp proper).1
        exact ⟨rest, same ▸ rfl⟩
  have noText := @opened_append_not_text rest (utf8 "ame" ++ key) 0x6E rfl (written ▸ json.object following)
  cases read : json.fromSlice (torn ++ json.toVec following) with
  | none => rfl
  | some entry =>
      have isText := json.text read
      rw [starts, written] at isText
      exact absurd isText noText

/-- The first entry appended after a crash is given up together with the torn record, unless the
crash left nothing. -/
def Spared (before after : List RegistryEntry) (torn : Bytes) : Prop :=
  torn = [] ∨ ∀ first rest, after = first :: rest → first ∈ before ++ rest

/-- The entries reported after a crash are the first of every name among those appended, without
the entry whose record the torn one swallowed; and a torn record leaves an issue behind. -/
theorem read_history {before after : List RegistryEntry} {torn : Bytes}
    {interrupted : RegistryEntry} (valid : ∀ entry ∈ before ++ after, entry.Valid)
    (proper : torn <+: record json interrupted) (short : torn ≠ record json interrupted) :
    ∃ reader : Reader,
      (parseSnapshot json (before.flatMap (record json) ++ (torn ++ after.flatMap (record json)))).entries =
        reader.snapshot.entries ∧
      reader.Read (before ++ if torn = [] then after else after.tail) ∧
      (torn ≠ [] →
        (parseSnapshot json (before.flatMap (record json) ++ (torn ++ after.flatMap (record json)))).issues ≠
          []) := by
  have validBefore := fun entry member => valid entry (List.mem_append_left after member)
  have validAfter := fun entry member => valid entry (List.mem_append_right before member)
  have readBefore := @Reader.Read.records json _ _ read_start before validBefore
  rw [parseSnapshot, parse_records]
  split
  · rename_i none
    rw [none, List.nil_append, ← List.append_nil (after.flatMap (record json)), parse_records, parse_nil]
    exact ⟨_, rfl, readBefore.records after validAfter, fun some => absurd rfl some⟩
  · rename_i nonempty
    have whole := newline_notMem_torn proper short
    cases after with
    | nil =>
        rw [List.flatMap_nil, List.append_nil, parse_incomplete _ nonempty whole]
        exact ⟨_, rfl, (List.append_nil ([] ++ before)).symm ▸ readBefore,
          fun _ => List.concat_ne_nil _ _⟩
    | cons first rest =>
        have line : newline ∉ torn ++ json.toVec first := by
          rw [List.mem_append]
          exact fun member => member.elim whole (json.compact first)
        rw [List.flatMap_cons, record, List.append_assoc, List.singleton_append,
          ← List.append_assoc, parse_line _ line, ← List.append_nil (rest.flatMap (record json)),
          parse_records, parse_nil]
        have unread : json.fromSlice (torn ++ json.toVec first) = none :=
          fromSlice_torn proper nonempty first
        exact ⟨_, rfl, (readBefore.refused unread).records rest fun entry member =>
          validAfter entry (List.mem_cons_of_mem _ member),
          fun _ => issues_records rest (issues_refused _ unread)⟩

/-- Every entry appended before or after a crash is reported exactly when no name was appended
with two different entries and the record torn by the crash was empty or swallowed nothing that
is not also reported elsewhere. -/
theorem crash_atomic_iff (json : SerdeJson) {before after : List RegistryEntry} {torn : Bytes}
    {interrupted : RegistryEntry} (valid : ∀ entry ∈ before ++ after, entry.Valid)
    (proper : torn <+: record json interrupted) (short : torn ≠ record json interrupted) :
    ∃ file, RegistryFile.history json before torn after = .ok file ∧
      ((∀ entry ∈ before ++ after, entry ∈ (file.read json).entries) ↔
        Unambiguous (before ++ after) ∧ Spared before after torn) := by
  refine ⟨_, RegistryFile.history_eq valid torn, ?_⟩
  obtain ⟨reader, entries, read, _⟩ := @read_history json _ _ _ _ valid proper short
  rw [RegistryFile.read, entries]
  by_cases nothing : torn = []
  · rw [if_pos nothing] at read
    rw [read.all_iff]
    exact (and_iff_left (.inl nothing)).symm
  · rw [if_neg nothing] at read
    cases after with
    | nil =>
        exact read.all_iff.trans (and_iff_left (.inr nofun)).symm
    | cons first rest =>
        constructor
        · intro all
          have kept : first ∈ before ++ rest :=
            read.sound first (all first (List.mem_append_right _ List.mem_cons_self))
          refine ⟨fun one isOne other isOther same => ?_, .inr fun _ _ same => ?_⟩
          · exact List.inj_on_of_nodup_map read.unique (all one isOne) (all other isOther) same
          · cases same
            exact kept
        · rintro ⟨unambiguous, spared⟩ entry member
          have kept : first ∈ before ++ rest := (spared.resolve_left nothing) first rest rfl
          have within : before ++ rest ⊆ before ++ first :: rest := by
            intro other isOther
            exact List.mem_append.mpr
              ((List.mem_append.mp isOther).imp_right (List.mem_cons_of_mem first))
          have all := read.all_iff.mpr fun one isOne other isOther =>
            unambiguous one (within isOne) other (within isOther)
          apply all
          rcases List.mem_append.mp member with old | new
          · exact List.mem_append_left _ old
          · rcases List.mem_cons.mp new with rfl | new
            · exact kept
            · exact List.mem_append_right _ new

/-! ### Compact records -/

namespace Compact

/-- How a byte of a string is written between quotes. -/
def escape (byte : UInt8) : Bytes :=
  if byte = quote then [backslash, quote]
  else if byte = backslash then [backslash, backslash]
  else if byte = 0x08 then [backslash, 0x62]
  else if byte = 0x09 then [backslash, 0x74]
  else if byte = 0x0A then [backslash, 0x6E]
  else if byte = 0x0C then [backslash, 0x66]
  else if byte = 0x0D then [backslash, 0x72]
  else if byte < 0x20 then
    [backslash, 0x75, 0x30, 0x30, hexNibble (byte.toNat / 16), hexNibble (byte.toNat % 16)]
  else [byte]

def quoted (bytes : Bytes) : Bytes := quote :: bytes.flatMap escape ++ [quote]

def decimal (value : Nat) : Bytes := (Nat.toDigits 10 value).map Char.toUInt8

/-- A member of the record's object. -/
def field (key : String) (value : Bytes) : Bytes := quote :: utf8 key ++ [quote] ++ colon :: value

/-- One compact object, its members in the order of the fields. -/
def toVec (entry : RegistryEntry) : Bytes :=
  openBrace :: (field "name" (quoted (utf8 entry.name)) ++ comma ::
    (field "token" (quoted (utf8 entry.token)) ++ comma ::
      (field "pid" (decimal entry.pid.toNat) ++ comma ::
        (field "boot_id" (quoted (utf8 entry.bootId)) ++ comma ::
          field "proc_start" (decimal entry.procStart.toNat))))) ++ [closeBrace]

theorem hexadecimal_hexNibble {value : Nat} (small : value < 16) :
    hexadecimal (hexNibble value) := by
  revert value
  decide

theorem characters_escape (byte : UInt8) {rest : Bytes} (tail : Characters rest) :
    Characters (escape byte ++ rest) := by
  rw [escape]
  split
  · exact .escape (by decide) tail
  split
  · exact .escape (by decide) tail
  split
  · exact .escape (by decide) tail
  split
  · exact .escape (by decide) tail
  split
  · exact .escape (by decide) tail
  split
  · exact .escape (by decide) tail
  split
  · exact .escape (by decide) tail
  split
  · apply @Characters.codeUnit [_, _, _, _] rest rfl _ tail
    have bound := byte.toNat_lt
    simp only [List.forall_mem_cons]
    exact ⟨rfl, rfl, hexadecimal_hexNibble (by omega), hexadecimal_hexNibble (by omega), nofun⟩
  · rename_i unquoted unescaped _ _ _ _ _ printable
    exact .plain (UInt8.not_lt.mp printable) unquoted unescaped tail

theorem characters_flatMap_escape (bytes : Bytes) : Characters (bytes.flatMap escape) := by
  induction bytes with
  | nil => exact .nil
  | cons byte bytes ih =>
      rw [List.flatMap_cons]
      exact characters_escape byte ih

theorem quoted_derives (bytes : Bytes) : Derives .element (quoted bytes) :=
  element_of_value (.string (characters_flatMap_escape bytes))

theorem digit_of_mem_decimal {value : Nat} {byte : UInt8} (member : byte ∈ decimal value) :
    digit byte := by
  obtain ⟨character, isMember, rfl⟩ := List.mem_map.mp member
  have isDigit := Nat.isDigit_of_mem_toDigits (by decide) (by decide) isMember
  have digits : ∀ number < 58, 48 ≤ number → digit (Char.ofNat number).toUInt8 := by decide
  rw [Char.isDigit, Bool.and_eq_true, decide_eq_true_eq, decide_eq_true_eq] at isDigit
  have digit := digits character.toNat (Nat.lt_succ_of_le isDigit.2) isDigit.1
  rwa [Char.ofNat_toNat] at digit

theorem decimal_derives (value : Nat) : Derives .element (decimal value) := by
  apply element_of_value
  apply Derives.word
  · rw [decimal, ne_eq, List.map_eq_nil_iff]
    exact Nat.toDigits_ne_nil
  · intro byte member
    simp only [word, digit_of_mem_decimal member, Bool.true_or]

theorem field_derives {key : String} (characters : Characters (utf8 key)) {value : Bytes}
    (item : Derives .element value) : Derives .member (field key value) := by
  have member := @Derives.member [] (utf8 key) [] value (fun _ => nofun) characters
    (fun _ => nofun) item
  rwa [List.nil_append, List.append_nil] at member

variable {bytes : Bytes}

theorem characters_plain (plain : ∀ byte ∈ bytes, 0x20 ≤ byte ∧ byte ≠ quote ∧ byte ≠ backslash) :
    Characters bytes := by
  induction bytes with
  | nil => exact .nil
  | cons byte bytes ih =>
      obtain ⟨printable, unquoted, unescaped⟩ := plain byte List.mem_cons_self
      exact .plain printable unquoted unescaped
        (ih fun other member => plain other (List.mem_cons_of_mem _ member))

theorem toVec_derives (entry : RegistryEntry) : Derives .value (toVec entry) := by
  have known : ∀ key ∈ ["name", "token", "pid", "boot_id", "proc_start"],
      Characters (utf8 key) := by
    have plain : ∀ key ∈ ["name", "token", "pid", "boot_id", "proc_start"],
        (utf8 key).all fun byte => 0x20 ≤ byte ∧ byte ≠ quote ∧ byte ≠ backslash := by decide
    intro key member
    refine characters_plain fun byte inside => ?_
    exact of_decide_eq_true (List.all_eq_true.mp (plain key member) byte inside)
  apply Derives.object
  apply Derives.members (field_derives (known _ (by decide)) (quoted_derives _))
  apply Derives.members (field_derives (known _ (by decide)) (quoted_derives _))
  apply Derives.members (field_derives (known _ (by decide)) (decimal_derives _))
  apply Derives.members (field_derives (known _ (by decide)) (quoted_derives _))
  exact .lastMember (field_derives (known _ (by decide)) (decimal_derives _))

theorem newline_notMem_of_le (printable : ∀ byte ∈ bytes, 0x20 ≤ byte) : newline ∉ bytes := by
  intro member
  exact absurd (printable newline member) (by decide)

theorem printable_of_all (all : bytes.all (0x20 ≤ ·)) : ∀ byte ∈ bytes, 0x20 ≤ byte :=
  fun byte inside => of_decide_eq_true (List.all_eq_true.mp all byte inside)

theorem printable_escape (byte : UInt8) : ∀ written ∈ escape byte, 0x20 ≤ written := by
  have nibble : ∀ value < 16, 0x20 ≤ hexNibble value := by decide
  have bound := byte.toNat_lt
  rw [escape]
  split
  · exact printable_of_all rfl
  split
  · exact printable_of_all rfl
  split
  · exact printable_of_all rfl
  split
  · exact printable_of_all rfl
  split
  · exact printable_of_all rfl
  split
  · exact printable_of_all rfl
  split
  · exact printable_of_all rfl
  split
  · simp only [List.forall_mem_cons]
    exact ⟨by decide, by decide, by decide, by decide, nibble _ (by omega), nibble _ (by omega),
      nofun⟩
  · rename_i printable
    exact List.forall_mem_singleton.mpr (UInt8.not_lt.mp printable)

theorem printable_quoted (bytes : Bytes) : ∀ byte ∈ quoted bytes, 0x20 ≤ byte := by
  intro byte member
  rw [quoted, List.cons_append, List.mem_cons, List.mem_append, List.mem_singleton,
    List.mem_flatMap] at member
  rcases member with rfl | ⟨origin, _, written⟩ | rfl
  · decide
  · exact printable_escape origin byte written
  · decide

theorem printable_decimal (value : Nat) : ∀ byte ∈ decimal value, 0x20 ≤ byte := by
  intro byte member
  have isDigit := digit_of_mem_decimal member
  rw [digit, Bool.and_eq_true, decide_eq_true_eq] at isDigit
  exact UInt8.le_trans (by decide) isDigit.1

theorem printable_toVec (entry : RegistryEntry) : ∀ byte ∈ toVec entry, 0x20 ≤ byte := by
  have key : ∀ key ∈ ["name", "token", "pid", "boot_id", "proc_start"],
      (quote :: utf8 key ++ [quote] ++ [colon]).all (0x20 ≤ ·) := by decide
  have inField : ∀ {key : String} {value : Bytes},
      key ∈ ["name", "token", "pid", "boot_id", "proc_start"] →
      (∀ byte ∈ value, 0x20 ≤ byte) → ∀ byte ∈ field key value, 0x20 ≤ byte := by
    intro name value known printable byte member
    rw [field, ← List.singleton_append (l := value), ← List.append_assoc, List.mem_append]
      at member
    exact member.elim (printable_of_all (key name known) byte) (printable byte)
  have separated : ∀ {first rest : Bytes}, (∀ byte ∈ first, 0x20 ≤ byte) →
      (∀ byte ∈ rest, 0x20 ≤ byte) → ∀ byte ∈ first ++ comma :: rest, 0x20 ≤ byte := by
    intro first rest printable printableRest byte member
    rw [List.mem_append, List.mem_cons] at member
    rcases member with member | rfl | member
    · exact printable byte member
    · decide
    · exact printableRest byte member
  intro byte member
  rw [toVec, List.cons_append, List.mem_cons, List.mem_append, List.mem_singleton] at member
  rcases member with rfl | member | rfl
  · decide
  · revert member
    revert byte
    apply separated (inField (by decide) (printable_quoted _))
    apply separated (inField (by decide) (printable_quoted _))
    apply separated (inField (by decide) (printable_decimal _))
    apply separated (inField (by decide) (printable_quoted _))
    exact inField (by decide) (printable_decimal _)
  · decide

theorem newline_notMem_toVec (entry : RegistryEntry) : newline ∉ toVec entry :=
  newline_notMem_of_le (printable_toVec entry)

def expect (literal bytes : Bytes) : Option Bytes :=
  if literal.isPrefixOf bytes then some (bytes.drop literal.length) else none

/-- The byte an escape letter stands for. -/
def unescaped (letter : UInt8) : UInt8 :=
  if letter = 0x62 then 0x08
  else if letter = 0x74 then 0x09
  else if letter = 0x6E then 0x0A
  else if letter = 0x66 then 0x0C
  else if letter = 0x72 then 0x0D
  else letter

/-- What stands after a backslash. -/
def readEscape : Bytes → Option (UInt8 × Bytes)
  | [] => none
  | letter :: rest =>
      if letter ≠ 0x75 then some (unescaped letter, rest)
      else
        match rest with
        | _ :: _ :: high :: low :: rest => do
            let high ← hexDigit high
            let low ← hexDigit low
            some (UInt8.ofNat (high * 16 + low), rest)
        | _ => none

def readCharacter : Bytes → Option (UInt8 × Bytes)
  | [] => none
  | byte :: rest => if byte = backslash then readEscape rest else some (byte, rest)

/-- The bytes up to the closing quote, and what stands after it. -/
def readQuoted : Nat → Bytes → Option (Bytes × Bytes)
  | 0, _ => none
  | fuel + 1, bytes =>
      if bytes.head? = some quote then some ([], bytes.tail)
      else do
        let (byte, rest) ← readCharacter bytes
        let (bytes, rest) ← readQuoted fuel rest
        some (byte :: bytes, rest)

def readString (bytes : Bytes) : Option (String × Bytes) := do
  let rest ← expect [quote] bytes
  let (bytes, rest) ← readQuoted rest.length rest
  let text ← String.fromUTF8? ⟨bytes.toArray⟩
  some (text, rest)

def readNumber (bytes : Bytes) : Option (Nat × Bytes) :=
  some (Nat.ofDigitChars 10 ((bytes.takeWhile digit).map Char.ofUInt8) 0, bytes.dropWhile digit)

/-- The members of a record in their order. -/
def readEntry (bytes : Bytes) : Option RegistryEntry := do
  let rest ← expect (openBrace :: field "name" []) bytes
  let (name, rest) ← readString rest
  let rest ← expect (comma :: field "token" []) rest
  let (token, rest) ← readString rest
  let rest ← expect (comma :: field "pid" []) rest
  let (pid, rest) ← readNumber rest
  let rest ← expect (comma :: field "boot_id" []) rest
  let (bootId, rest) ← readString rest
  let rest ← expect (comma :: field "proc_start" []) rest
  let (procStart, _) ← readNumber rest
  some {
    name
    token
    pid := UInt32.ofNat pid
    bootId
    procStart := UInt64.ofNat procStart
  }

/-- A record is only taken if it is written as the registry writes it. -/
def fromSlice (line : Bytes) : Option RegistryEntry :=
  (readEntry line).filter fun entry => toVec entry = line

theorem expect_append (literal rest : Bytes) : expect literal (literal ++ rest) = some rest := by
  rw [expect, if_pos (List.isPrefixOf_iff_prefix.mpr (List.prefix_append literal rest)),
    List.drop_left]

theorem hexDigit_hexNibble {value : Nat} (small : value < 16) :
    hexDigit (hexNibble value) = some value := by
  revert value
  decide

theorem readCharacter_codeUnit (byte : UInt8) (rest : Bytes) :
    readCharacter ([backslash, 0x75, 0x30, 0x30, hexNibble (byte.toNat / 16),
      hexNibble (byte.toNat % 16)] ++ rest) = some (byte, rest) := by
  have bound := byte.toNat_lt
  have whole : UInt8.ofNat (byte.toNat / 16 * 16 + byte.toNat % 16) = byte := by
    rw [Nat.div_add_mod', UInt8.ofNat_toNat]
  change (do
    let high ← hexDigit (hexNibble (byte.toNat / 16))
    let low ← hexDigit (hexNibble (byte.toNat % 16))
    some (UInt8.ofNat (high * 16 + low), rest)) = _
  rw [hexDigit_hexNibble (by omega), hexDigit_hexNibble (by omega)]
  exact congrArg (fun byte => some (byte, rest)) whole

theorem readCharacter_escape (byte : UInt8) (rest : Bytes) :
    readCharacter (escape byte ++ rest) = some (byte, rest) := by
  rw [escape]
  split
  · rename_i same
    subst same
    rfl
  split
  · rename_i same
    subst same
    rfl
  split
  · rename_i same
    subst same
    rfl
  split
  · rename_i same
    subst same
    rfl
  split
  · rename_i same
    subst same
    rfl
  split
  · rename_i same
    subst same
    rfl
  split
  · rename_i same
    subst same
    rfl
  split
  · exact readCharacter_codeUnit byte rest
  · rename_i unquoted unescaped _ _ _ _ _ _
    exact if_neg unescaped

theorem head_escape (byte : UInt8) (rest : Bytes) : (escape byte ++ rest).head? ≠ some quote := by
  by_cases unquoted : byte = quote
  · subst unquoted
    exact fun same => absurd (Option.some.inj same) (by decide)
  · rw [escape, if_neg unquoted]
    repeat' split
    all_goals intro same
    iterate 7 exact absurd (Option.some.inj same) (by decide)
    exact unquoted (Option.some.inj same)

theorem readQuoted_flatMap_escape (bytes rest : Bytes) {fuel : Nat} (enough : bytes.length < fuel) :
    readQuoted fuel (bytes.flatMap escape ++ quote :: rest) = some (bytes, rest) := by
  induction bytes generalizing fuel with
  | nil =>
      cases fuel with
      | zero => exact nomatch enough
      | succ fuel => rfl
  | cons byte bytes ih =>
      cases fuel with
      | zero => exact nomatch enough
      | succ fuel =>
          rw [List.flatMap_cons, List.append_assoc, readQuoted, if_neg (head_escape byte _),
            readCharacter_escape]
          change (do
            let (bytes, rest) ← readQuoted fuel (bytes.flatMap escape ++ quote :: rest)
            some (byte :: bytes, rest)) = _
          rw [ih (Nat.lt_of_succ_lt_succ enough)]
          rfl

theorem length_le_flatMap_escape (bytes : Bytes) : bytes.length ≤ (bytes.flatMap escape).length := by
  have written : ∀ byte, 1 ≤ (escape byte).length := by
    intro byte
    rw [escape]
    repeat' split
    all_goals exact Nat.succ_le_succ (Nat.zero_le _)
  induction bytes with
  | nil => exact Nat.le_refl 0
  | cons byte bytes ih =>
      have one := written byte
      rw [List.flatMap_cons, List.length_append, List.length_cons]
      omega

theorem readString_quoted (text : String) (rest : Bytes) :
    readString (quoted (utf8 text) ++ rest) = some (text, rest) := by
  have enough : (utf8 text).length <
      ((utf8 text).flatMap escape ++ quote :: rest).length := by
    have written := length_le_flatMap_escape (utf8 text)
    rw [List.length_append, List.length_cons]
    omega
  have shape : quoted (utf8 text) ++ rest =
      [quote] ++ ((utf8 text).flatMap escape ++ quote :: rest) := by
    rw [quoted, List.append_assoc, List.singleton_append, List.cons_append, List.singleton_append]
  have back : String.fromUTF8? ⟨(utf8 text).toArray⟩ = some text := by
    rw [utf8, Array.toArray_toList, String.fromUTF8?, dif_pos text.isValidUTF8]
    rfl
  rw [readString, shape, expect_append]
  change (do
    let (bytes, rest) ← readQuoted _ ((utf8 text).flatMap escape ++ quote :: rest)
    let text ← String.fromUTF8? ⟨bytes.toArray⟩
    some (text, rest)) = _
  rw [readQuoted_flatMap_escape (utf8 text) rest enough]
  change (do
    let text ← String.fromUTF8? ⟨(utf8 text).toArray⟩
    some (text, rest)) = _
  rw [back]
  rfl

theorem readNumber_decimal (value : Nat) {byte : UInt8} (other : ¬digit byte) (rest : Bytes) :
    readNumber (decimal value ++ byte :: rest) = some (value, byte :: rest) := by
  have digits : (decimal value).map Char.ofUInt8 = Nat.toDigits 10 value := by
    have back : ∀ number < 58, Char.ofUInt8 (Char.ofNat number).toUInt8 = Char.ofNat number := by
      decide
    rw [decimal, List.map_map]
    apply (List.map_congr_left _).trans (List.map_id _)
    intro character isMember
    have isDigit := Nat.isDigit_of_mem_toDigits (by decide) (by decide) isMember
    rw [Char.isDigit, Bool.and_eq_true, decide_eq_true_eq, decide_eq_true_eq] at isDigit
    have same := back character.toNat (Nat.lt_succ_of_le isDigit.2)
    rwa [Char.ofNat_toNat] at same
  rw [readNumber, List.takeWhile_append_of_pos fun byte => digit_of_mem_decimal,
    List.takeWhile_cons_of_neg other, List.append_nil, digits, Nat.ofDigitChars_ten_toDigits,
    List.dropWhile_append_of_pos fun byte => digit_of_mem_decimal,
    List.dropWhile_cons_of_neg other]

theorem readEntry_toVec (entry : RegistryEntry) : readEntry (toVec entry) = some entry := by
  have member : ∀ {α β : Type} {read : Bytes → Option (α × Bytes)} {bytes rest : Bytes}
      {value : α} (key : Bytes) (continuation : α × Bytes → Option β),
      read bytes = some (value, rest) →
      (do
        let rest ← expect key (key ++ bytes)
        let item ← read rest
        continuation item) = continuation (value, rest) := by
    intro α β read bytes rest value key continuation reads
    rw [expect_append]
    change (read bytes).bind continuation = _
    rw [reads]
    rfl
  have shape : toVec entry =
      (openBrace :: field "name" []) ++ (quoted (utf8 entry.name) ++
        ((comma :: field "token" []) ++ (quoted (utf8 entry.token) ++
          ((comma :: field "pid" []) ++ (decimal entry.pid.toNat ++ comma ::
            (field "boot_id" [] ++ (quoted (utf8 entry.bootId) ++
              ((comma :: field "proc_start" []) ++
                (decimal entry.procStart.toNat ++ [closeBrace]))))))))) := by
    simp only [toVec, field, List.append_assoc, List.cons_append, List.nil_append]
  rw [shape, readEntry, member _ _ (readString_quoted _ _)]
  dsimp only
  rw [member _ _ (readString_quoted _ _)]
  dsimp only
  rw [member _ _ (readNumber_decimal _ (by decide) _)]
  dsimp only
  rw [← List.cons_append, member _ _ (readString_quoted _ _)]
  dsimp only
  rw [member _ _ (readNumber_decimal _ (by decide) _)]
  dsimp only
  rw [UInt32.ofNat_toNat, UInt64.ofNat_toNat]

theorem fromSlice_toVec (entry : RegistryEntry) : fromSlice (toVec entry) = some entry := by
  rw [fromSlice, readEntry_toVec, Option.filter_some, if_pos (decide_eq_true rfl)]

theorem toVec_of_fromSlice {entry : RegistryEntry} (read : fromSlice line = some entry) :
    toVec entry = line :=
  of_decide_eq_true (Option.filter_eq_some_iff.mp read).2

/-- The registry may be run with the compact records. -/
def serdeJson : SerdeJson where
  toVec := toVec
  fromSlice := fromSlice
  object := toVec_derives
  compact := newline_notMem_toVec
  opens _ := ⟨_, rfl⟩
  text read := element_of_value (toVec_of_fromSlice read ▸ toVec_derives _)
  reads := fromSlice_toVec

end Compact

/-! ### An entry lost to the record before it -/

/-- An entry for one of the regions of the token of zeros. -/
def zeroEntry (lastLetter : String) : RegistryEntry where
  name := "/hlaaaaaaaaaaaaaaaaaaa" ++ lastLetter
  token := "00000000000000000000000000000000"
  pid := 7
  bootId := "boot"
  procStart := 9

/-- Five bytes of an append reached the file. -/
def zeroTorn : Bytes := (record Compact.serdeJson (zeroEntry "b")).take 5

theorem crash_atomic_iff_torn :
    ∃ file, RegistryFile.history Compact.serdeJson [zeroEntry "a"] zeroTorn [zeroEntry "c"] = .ok file ∧
      ((∀ entry ∈ [zeroEntry "a"] ++ [zeroEntry "c"],
          entry ∈ (file.read Compact.serdeJson).entries) ↔
        Unambiguous ([zeroEntry "a"] ++ [zeroEntry "c"]) ∧
          Spared [zeroEntry "a"] [zeroEntry "c"] zeroTorn) :=
  crash_atomic_iff Compact.serdeJson (by decide +kernel)
    (List.take_prefix 5 (record Compact.serdeJson (zeroEntry "b"))) (by decide +kernel)

/-- The entry appended after the crash was stored and is not reported. -/
theorem torn_record_lost :
    zeroTorn <+: record Compact.serdeJson (zeroEntry "b") ∧ zeroTorn ≠ record Compact.serdeJson (zeroEntry "b") ∧
    ∃ file, RegistryFile.history Compact.serdeJson [zeroEntry "a"] zeroTorn [zeroEntry "c"] = .ok file ∧
      zeroEntry "c" ∉ (file.read Compact.serdeJson).entries := by
  have valid : ∀ entry ∈ [zeroEntry "a"] ++ [zeroEntry "c"], entry.Valid := by decide +kernel
  have proper : zeroTorn <+: record Compact.serdeJson (zeroEntry "b") := List.take_prefix 5 _
  have short : zeroTorn ≠ record Compact.serdeJson (zeroEntry "b") := by decide +kernel
  refine ⟨proper, short, _, RegistryFile.history_eq valid zeroTorn, fun reported => ?_⟩
  obtain ⟨reader, entries, read, _⟩ :=
    @read_history Compact.serdeJson _ _ zeroTorn _ valid proper short
  rw [RegistryFile.read, entries] at reported
  exact absurd (read.sound _ reported) (by decide +kernel)

end Hyperloader.Arena
