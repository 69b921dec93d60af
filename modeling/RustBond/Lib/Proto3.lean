import Mathlib.Algebra.Group.Nat.Defs
import Mathlib.Data.List.Basic

/-!
# `RustBond.Lib.Proto3`: the wire format of proto3 messages

A message on the wire is a sequence of fields. A field is a key, which holds a field number and
a wire type, and a value, which is a varint or a string of bytes with its length in front. The
other wire types do not occur here.

* `encodeFields` and `decodeFields` are inverse on valid fields (`decodeFields_encodeFields`).
* A scalar field is written unless it has its default value (`scalar`, `blob`). An embedded
  message is written if it is present (`embedded`).
* A message type reads its fields one after another, from the default message. `read_scalar`,
  `read_blob` and `read_embedded` do this for the fields that are written for a message.
* `length_encodeVarint` and the lemmas after it bound the lengths.
-/

set_option autoImplicit false

namespace Proto3

/-! ### Varints -/

/-- The groups of seven bits of a number, the least significant first, at most `k` of them. All
but the last carry the continuation bit. -/
def groups : Nat → Nat → List UInt8
  | 0, _ => []
  | k + 1, n => if n < 128 then [.ofNat n] else .ofNat (n % 128 + 128) :: groups k (n / 128)

def encodeVarint (n : Nat) : List UInt8 := groups 10 n

/-- Reads at most `k` groups. Returns the number and the bytes after it. -/
def readGroups : Nat → List UInt8 → Option (Nat × List UInt8)
  | 0, _ => none
  | _ + 1, [] => none
  | k + 1, b :: bytes =>
    if b.toNat < 128 then some (b.toNat, bytes)
    else (readGroups k bytes).map fun r => (b.toNat - 128 + 128 * r.1, r.2)

def decodeVarint (bytes : List UInt8) : Option (Nat × List UInt8) :=
  (readGroups 10 bytes).filter fun r => r.1 < 2 ^ 64

/-- A number below `128 ^ (k + 1)` is read back from its groups of 7 bits, and what follows them
is left. The induction is on the number of groups. -/
theorem readGroups_groups (k n : Nat) (h : n < 128 ^ (k + 1)) (t : List UInt8) :
    readGroups (k + 1) (groups (k + 1) n ++ t) = some (n, t) := by
  induction k generalizing n with
  | zero =>
    have hsmall : n < 128 := h
    have hbyte : (UInt8.ofNat n).toNat = n := by
      rw [UInt8.toNat_ofNat']
      omega
    rw [groups, if_pos hsmall, List.singleton_append, readGroups, hbyte, if_pos hsmall]
  | succ k ih =>
    rw [groups]
    split
    · rename_i hsmall
      have hbyte : (UInt8.ofNat n).toNat = n := by
        rw [UInt8.toNat_ofNat']
        omega
      rw [List.singleton_append, readGroups, hbyte, if_pos hsmall]
    · have hbyte : (UInt8.ofNat (n % 128 + 128)).toNat = n % 128 + 128 := by
        rw [UInt8.toNat_ofNat']
        omega
      -- The rest has one group less.
      have hrest : n / 128 < 128 ^ (k + 1) := by
        rw [Nat.div_lt_iff_lt_mul (by omega), ← Nat.pow_succ]
        exact h
      rw [List.cons_append, readGroups, hbyte, if_neg (by omega), ih (n / 128) hrest]
      simp only [Option.map_some, Option.some.injEq, Prod.mk.injEq, and_true]
      omega

/-- A varint is read back from its bytes, and what follows is left. -/
theorem decodeVarint_encodeVarint {n : Nat} (h : n < 2 ^ 64) (t : List UInt8) :
    decodeVarint (encodeVarint n ++ t) = some (n, t) := by
  have hbound : n < 128 ^ (9 + 1) := by omega
  unfold decodeVarint encodeVarint
  rw [readGroups_groups 9 n hbound, Option.filter_some, if_pos (decide_eq_true h)]

/-- A varint has at least one group, even for 0. -/
theorem length_groups_pos (k n : Nat) : 0 < (groups (k + 1) n).length := by
  rw [groups]
  split
  · exact Nat.one_pos
  · exact Nat.succ_pos _

/-- A number of `k` groups takes at most `k` bytes. -/
theorem length_groups_le (m k n : Nat) (h : n < 128 ^ (k + 1)) :
    (groups m n).length ≤ k + 1 := by
  induction k generalizing m n with
  | zero =>
    cases m with
    | zero => exact Nat.zero_le _
    | succ m =>
      rw [groups, if_pos (by omega)]
      exact Nat.le_refl _
  | succ k ih =>
    cases m with
    | zero => exact Nat.zero_le _
    | succ m =>
      rw [groups]
      split
      · exact Nat.succ_le_succ (Nat.zero_le _)
      · have hrest : n / 128 < 128 ^ (k + 1) := by
          rw [Nat.div_lt_iff_lt_mul (by omega), ← Nat.pow_succ]
          exact h
        exact Nat.succ_le_succ (ih m (n / 128) hrest)

/-- A number below `128 ^ (k + 1)` takes up at most `k + 1` bytes. -/
theorem length_encodeVarint_le (k : Nat) {n : Nat} (h : n < 128 ^ (k + 1)) :
    (encodeVarint n).length ≤ k + 1 :=
  length_groups_le 10 k n h

/-- No varint is empty. -/
theorem length_encodeVarint_pos (n : Nat) : 0 < (encodeVarint n).length :=
  length_groups_pos 9 n

/-! ### Fields -/

inductive Value where
  | varint (n : Nat)
  | bytes (b : List UInt8)
deriving DecidableEq

structure Field where
  number : Nat
  value : Value
deriving DecidableEq

def Value.wireType (value : Value) : Nat :=
  match value with
  | .varint _ => 0
  | .bytes _ => 2

def encodeValue (value : Value) : List UInt8 :=
  match value with
  | .varint n => encodeVarint n
  | .bytes b => encodeVarint b.length ++ b

def encodeField (f : Field) : List UInt8 :=
  encodeVarint (8 * f.number + f.value.wireType) ++ encodeValue f.value

def encodeFields (fs : List Field) : List UInt8 := fs.flatMap encodeField

def decodeValue (wireType : Nat) (bytes : List UInt8) : Option (Value × List UInt8) :=
  match wireType with
  | 0 => (decodeVarint bytes).map fun r => (.varint r.1, r.2)
  | 2 =>
    (decodeVarint bytes).bind fun r =>
      if r.1 ≤ r.2.length then some (.bytes (r.2.take r.1), r.2.drop r.1) else none
  | _ => none

def decodeField (bytes : List UInt8) : Option (Field × List UInt8) :=
  (decodeVarint bytes).bind fun key =>
    if key.1 / 8 = 0 then none
    else (decodeValue (key.1 % 8) key.2).map fun r => (⟨key.1 / 8, r.1⟩, r.2)

/-- Reads at most `k` fields, up to the end of the bytes. -/
def readFields : Nat → List UInt8 → Option (List Field)
  | _, [] => some []
  | 0, _ :: _ => none
  | k + 1, b :: bytes =>
    (decodeField (b :: bytes)).bind fun r => (readFields k r.2).map fun fs => r.1 :: fs

/-- A field takes at least one byte, so there are no more fields than bytes. -/
def decodeFields (bytes : List UInt8) : Option (List Field) := readFields bytes.length bytes

def Value.Valid (value : Value) : Prop :=
  match value with
  | .varint n => n < 2 ^ 64
  | .bytes b => b.length < 2 ^ 64

/-- The field number is in the range of proto3, and the value fits its wire type. -/
structure Field.Valid (f : Field) : Prop where
  number_pos : 0 < f.number
  number_lt : f.number < 2 ^ 29
  value : f.value.Valid

/-- A value is read back according to its wire type, and what follows is left. -/
theorem decodeValue_encodeValue {value : Value} (h : value.Valid) (t : List UInt8) :
    decodeValue value.wireType (encodeValue value ++ t) = some (value, t) := by
  cases value with
  | varint n =>
    show (decodeVarint (encodeVarint n ++ t)).map _ = _
    rw [decodeVarint_encodeVarint h]
    rfl
  | bytes b =>
    show (decodeVarint (encodeVarint b.length ++ b ++ t)).bind _ = _
    rw [List.append_assoc, decodeVarint_encodeVarint h, Option.bind_some]
    simp

/-- A field is read back with its tag, and what follows is left. -/
theorem decodeField_encodeField {f : Field} (h : f.Valid) (t : List UInt8) :
    decodeField (encodeField f ++ t) = some (f, t) := by
  have hnumber := h.number_pos
  have hlt := h.number_lt
  have htype : f.value.wireType < 8 := by
    cases f.value with
    | varint => exact Nat.lt_of_sub_eq_succ rfl
    | bytes => exact Nat.lt_of_sub_eq_succ rfl
  have hkey : 8 * f.number + f.value.wireType < 2 ^ 64 := by omega
  have hdiv : (8 * f.number + f.value.wireType) / 8 = f.number := by omega
  have hmod : (8 * f.number + f.value.wireType) % 8 = f.value.wireType := by omega
  unfold decodeField encodeField
  rw [List.append_assoc, decodeVarint_encodeVarint hkey, Option.bind_some, hdiv, hmod,
    if_neg (by omega), decodeValue_encodeValue h.value]
  rfl

/-- No field is empty. -/
theorem length_encodeField_pos (f : Field) : 0 < (encodeField f).length := by
  unfold encodeField
  rw [List.length_append]
  exact Nat.add_pos_left (length_encodeVarint_pos _) _

/-- Valid fields are read back in their order, given enough fuel to read them all. -/
theorem readFields_encodeFields (k : Nat) {fs : List Field} (h : ∀ f ∈ fs, f.Valid)
    (hk : fs.length ≤ k) : readFields k (encodeFields fs) = some fs := by
  induction fs generalizing k with
  | nil =>
    cases k with
    | zero => rfl
    | succ k => rfl
  | cons f fs ih =>
    cases k with
    | zero => cases hk
    | succ k =>
      have hrest : readFields k (encodeFields fs) = some fs :=
        ih k (fun f' hf' => h f' (List.mem_cons_of_mem _ hf')) (Nat.le_of_succ_le_succ hk)
      have hfield := decodeField_encodeField (h f List.mem_cons_self) (encodeFields fs)
      -- The bytes are not empty, so the reader goes on with a field.
      have hsplit : encodeFields (f :: fs) = encodeField f ++ encodeFields fs := List.flatMap_cons
      rw [hsplit]
      cases hbytes : encodeField f ++ encodeFields fs with
      | nil =>
        have hlength := congrArg List.length hbytes
        have hpos := length_encodeField_pos f
        rw [List.length_append, List.length_nil] at hlength
        omega
      | cons b bytes =>
        rw [readFields, ← hbytes, hfield, Option.bind_some, hrest]
        rfl

/-- There are at most as many fields as bytes, so the number of bytes is enough fuel. -/
theorem length_le_encodeFields (fs : List Field) : fs.length ≤ (encodeFields fs).length := by
  induction fs with
  | nil => exact Nat.le_refl _
  | cons f fs ih =>
    have hpos := length_encodeField_pos f
    have hsplit : encodeFields (f :: fs) = encodeField f ++ encodeFields fs := List.flatMap_cons
    rw [hsplit, List.length_append, List.length_cons]
    omega

/-- Decoding undoes encoding. -/
theorem decodeFields_encodeFields {fs : List Field} (h : ∀ f ∈ fs, f.Valid) :
    decodeFields (encodeFields fs) = some fs :=
  readFields_encodeFields _ h (length_le_encodeFields fs)

/-- The fields of two lists are written one after the other. -/
theorem encodeFields_append (fs fs' : List Field) :
    encodeFields (fs ++ fs') = encodeFields fs ++ encodeFields fs' :=
  List.flatMap_append

/-! ### Messages -/

/-- A scalar field that is written as a varint. -/
def scalar (number n : Nat) : List Field := if n = 0 then [] else [⟨number, .varint n⟩]

/-- A field of type `bytes`. -/
def blob (number : Nat) (b : List UInt8) : List Field :=
  if b = [] then [] else [⟨number, .bytes b⟩]

/-- An embedded message, in its encoded form. -/
def embedded (number : Nat) (message : Option (List UInt8)) : List Field :=
  message.toList.map fun b => ⟨number, .bytes b⟩

section
variable {M : Type} {step : M → Field → Option M} {m m' : M} {number : Nat}

/-- A message reads a scalar field that is written for it. The default value is not written, so
it must be what the message has already. -/
theorem read_scalar {n : Nat} (hread : step m ⟨number, .varint n⟩ = some m')
    (hdefault : n = 0 → m' = m) : (scalar number n).foldlM step m = some m' := by
  unfold scalar
  split
  · rename_i hzero
    rw [hdefault hzero]
    rfl
  · simp [hread]

/-- A byte field that is left out when empty is read to the same message, provided that the empty
value is the default. -/
theorem read_blob {b : List UInt8} (hread : step m ⟨number, .bytes b⟩ = some m')
    (hdefault : b = [] → m' = m) : (blob number b).foldlM step m = some m' := by
  unfold blob
  split
  · rename_i hempty
    rw [hdefault hempty]
    rfl
  · simp [hread]

/-- An embedded message that is left out when absent is read to the same message, provided that
its absence is the default. -/
theorem read_embedded {message : Option (List UInt8)}
    (hread : ∀ b ∈ message, step m ⟨number, .bytes b⟩ = some m')
    (habsent : message = none → m' = m) : (embedded number message).foldlM step m = some m' := by
  cases message with
  | none =>
    rw [habsent rfl]
    rfl
  | some b => simp [embedded, hread b rfl]

end

/-- A scalar is written as valid fields. -/
theorem valid_scalar {number n : Nat} (hpos : 0 < number) (hlt : number < 2 ^ 29)
    (hn : n < 2 ^ 64) : ∀ f ∈ scalar number n, f.Valid := by
  intro f hf
  unfold scalar at hf
  split at hf
  · cases hf
  · rw [List.mem_singleton.mp hf]
    exact ⟨hpos, hlt, hn⟩

/-- A byte field is written as valid fields. -/
theorem valid_blob {number : Nat} {b : List UInt8} (hpos : 0 < number) (hlt : number < 2 ^ 29)
    (hb : b.length < 2 ^ 64) : ∀ f ∈ blob number b, f.Valid := by
  intro f hf
  unfold blob at hf
  split at hf
  · cases hf
  · rw [List.mem_singleton.mp hf]
    exact ⟨hpos, hlt, hb⟩

/-- An embedded message is written as valid fields. -/
theorem valid_embedded {number : Nat} {message : Option (List UInt8)} (hpos : 0 < number)
    (hlt : number < 2 ^ 29) (hb : ∀ b ∈ message, b.length < 2 ^ 64) :
    ∀ f ∈ embedded number message, f.Valid := by
  intro f hf
  obtain ⟨b, hmem, rfl⟩ := List.mem_map.mp hf
  exact ⟨hpos, hlt, hb b (Option.mem_toList.mp hmem)⟩

/-! ### Lengths -/

/-- The key of a field with a small number is one byte. -/
theorem length_key_le {number : Nat} (h : number < 16) (value : Value) :
    (encodeVarint (8 * number + value.wireType)).length ≤ 1 := by
  refine length_encodeVarint_le 0 ?_
  have htype : value.wireType ≤ 2 := by
    cases value with
    | varint => exact Nat.zero_le _
    | bytes => exact Nat.le_refl _
  omega

/-- A scalar with a small field number takes up one byte for the tag besides its varint. -/
theorem length_scalar_le {number n k : Nat} (hnumber : number < 16) (hn : n < 128 ^ (k + 1)) :
    (encodeFields (scalar number n)).length ≤ k + 2 := by
  unfold scalar
  split
  · exact Nat.zero_le _
  · have hkey := length_key_le hnumber (.varint n)
    have hvalue := length_encodeVarint_le k hn
    simp only [encodeFields, List.flatMap_cons, List.flatMap_nil, List.append_nil, encodeField,
      encodeValue, List.length_append]
    omega

/-- A short string of bytes takes two more bytes. -/
theorem length_bytes_le {number : Nat} {b : List UInt8} (hnumber : number < 16)
    (hb : b.length < 128) : (encodeField ⟨number, .bytes b⟩).length ≤ b.length + 2 := by
  have hkey := length_key_le hnumber (.bytes b)
  have hlength := length_encodeVarint_le 0 (n := b.length) (by omega)
  simp only [encodeField, encodeValue, List.length_append]
  omega

/-- A short byte field with a small field number takes up two bytes besides its content. -/
theorem length_blob_le {number : Nat} {b : List UInt8} (hnumber : number < 16)
    (hb : b.length < 128) : (encodeFields (blob number b)).length ≤ b.length + 2 := by
  unfold blob
  split
  · exact Nat.zero_le _
  · rw [encodeFields, List.flatMap_cons, List.flatMap_nil, List.append_nil]
    exact length_bytes_le hnumber hb

/-- A short embedded message with a small field number takes up two bytes besides its content. -/
theorem length_embedded_le {number : Nat} {b : List UInt8} (hnumber : number < 16)
    (hb : b.length < 128) :
    (encodeFields (embedded number (some b))).length ≤ b.length + 2 := by
  have hone : embedded number (some b) = [⟨number, .bytes b⟩] := rfl
  rw [hone, encodeFields, List.flatMap_cons, List.flatMap_nil, List.append_nil]
  exact length_bytes_le hnumber hb

end Proto3
