import IotCamera.Rtmp.Amf0Encoding

/-!
# Reading AMF0 values back

The end mark of an object is looked for in front of every value, so a number is taken for
it when its highest sixteen bits are 0x0009. Apart from these numbers, from texts that are
too long for a signed length and from arrays whose count is not that of their elements,
what was written is read back as it was, whatever follows it.
-/

namespace IotCamera.Rtmp.Amf0

open Codecs BigEndian

mutual

/-- The values that are read back as they are written. -/
def Any.Storable : Any → Prop
  | .string value => value.length < 2 ^ 15
  | .number value => value.toNat / 2 ^ 48 ≠ 0x0009
  | .object properties => properties.names.Nodup ∧ properties.Storable
  | .ecmaArray _ properties => properties.names.Nodup ∧ properties.Storable
  | .strictArray count properties => count.toInt.toNat = properties.count ∧ properties.Storable
  | .boolean _ | .null | .undefined | .objectEof | .date _ _ => True

def Properties.Storable : Properties → Prop
  | .nil => True
  | .cons name value rest => name.length < 2 ^ 15 ∧ value.Storable ∧ rest.Storable

def Elements.Storable : Elements → Prop
  | .nil => True
  | .cons value rest => value.Storable ∧ rest.Storable

end

mutual

/-- How deep values are nested in a value. Reading it makes as many calls inside one
another. -/
def Any.depth : Any → Nat
  | .object properties => properties.depth + 1
  | .ecmaArray _ properties => properties.depth + 1
  | .strictArray _ properties => properties.depth + 1
  | .string _ | .number _ | .boolean _ | .null | .undefined | .objectEof | .date _ _ => 1

def Properties.depth : Properties → Nat
  | .nil => 0
  | .cons _ value rest => max value.depth rest.depth

def Elements.depth : Elements → Nat
  | .nil => 0
  | .cons value rest => max value.depth rest.depth

end

/-- A value is one level at least. -/
theorem depth_positive (value : Any) : 0 < value.depth := by
  cases value <;> exact Nat.succ_pos _

mutual

/-- A value has a byte for each level. -/
theorem depth_le_bytes : (value : Any) → value.depth ≤ value.bytes.length
  | .string _ | .number _ | .boolean _ | .null | .undefined | .objectEof | .date _ _ => by
      simp [Any.depth, Any.bytes, objectEofBytes, bytesOf]
  | .object properties => by
      have inside := properties_depth_le_bytes properties
      simp only [Any.depth, Any.bytes, List.length_cons, List.length_append]
      omega
  | .ecmaArray count properties => by
      have inside := properties_depth_le_bytes properties
      simp only [Any.depth, Any.bytes, List.length_cons, List.length_append]
      omega
  | .strictArray count properties => by
      have inside := elements_depth_le_bytes properties
      simp only [Any.depth, Any.bytes, List.length_cons, List.length_append]
      omega

/-- Properties have a byte for each level. -/
theorem properties_depth_le_bytes : (properties : Properties) → properties.depth ≤ properties.bytes.length
  | .nil => Nat.zero_le _
  | .cons name value rest => by
      have first := depth_le_bytes value
      have others := properties_depth_le_bytes rest
      simp only [Properties.depth, Properties.bytes, List.length_append]
      omega

/-- Elements have a byte for each level. -/
theorem elements_depth_le_bytes : (properties : Elements) → properties.depth ≤ properties.bytes.length
  | .nil => Nat.zero_le _
  | .cons value rest => by
      have first := depth_le_bytes value
      have others := elements_depth_le_bytes rest
      simp only [Elements.depth, Elements.bytes, List.length_append]
      omega

end

/-! ### The steps -/

/-- A number is read back from its bytes. -/
theorem read_number_bytes {width : Nat} (count : Nat) (room : 2 ^ width ≤ 256 ^ count)
    (value : BitVec width) (rest : List Byte) :
    readNumber width count (bytesOf count value.toNat ++ rest) = .ok (value, rest) := by
  have taken := take_append Failure.ERROR_RTMP_AMF0_DECODE (bytesOf count value.toNat) rest
  rw [bytes_length] at taken
  have exact : numberOf (bytesOf count value.toNat) = value.toNat :=
    number_bytes_of_lt count value.toNat (lt_of_lt_of_le value.isLt room)
  refine (bind_read taken).trans ?_
  rw [exact, BitVec.ofNat_toNat, BitVec.setWidth_eq]
  rfl

/-- The marker that is expected is read. -/
theorem read_marker_cons (marker : Byte) (rest : List Byte) :
    readMarker marker (marker :: rest) = .ok ((), rest) := by
  have read := read_number_bytes 1 (by decide) marker rest
  rw [bytes_one] at read
  refine (bind_read read).trans ?_
  rw [if_pos rfl]
  rfl

/-- A marker that was read was the first byte. -/
theorem read_marker_inv {marker : Byte} {bytes rest : List Byte}
    (read : readMarker marker bytes = .ok ((), rest)) : bytes = marker :: rest := by
  obtain ⟨value, left, number, checked⟩ := bind_read_inv read
  obtain ⟨taken, after, bytesTaken, converted⟩ := bind_read_inv number
  cases converted
  obtain ⟨single, parts⟩ := take_inv bytesTaken
  obtain ⟨byte, rfl⟩ := List.length_eq_one_iff.mp single
  split at checked
  case isFalse => cases checked
  case isTrue same =>
    cases checked
    have value : byte = marker := by simpa [numberOf] using same
    rw [parts, value]
    rfl

/-- A short text is read back from its length and its bytes. -/
theorem read_utf8_bytes (value rest : List Byte) (short : value.length < 2 ^ 15) :
    srsAmf0ReadUtf8 (utf8Bytes value ++ rest) = .ok (value, rest) := by
  have size : (BitVec.ofNat 16 value.length).toNat = value.length := by
    rw [BitVec.toNat_ofNat]
    omega
  have read := read_number_bytes 2 (by decide) (BitVec.ofNat 16 value.length) (value ++ rest)
  rw [utf8Bytes, List.append_assoc]
  refine (bind_read read).trans ?_
  have sign : (BitVec.ofNat 16 value.length).toInt = value.length := by
    rw [BitVec.toInt_eq_toNat_of_lt (by omega), size]
  rw [sign, size]
  split
  case isTrue empty =>
    have none : value = [] := List.eq_nil_of_length_eq_zero (by omega)
    rw [none]
    rfl
  case isFalse => exact take_append _ value rest

/-- The end mark of an object is the three bytes 0, 0 and 9. -/
theorem is_object_eof_iff (bytes : List Byte) :
    srsAmf0IsObjectEof bytes = true ↔ ∃ rest, bytes = 0 :: 0 :: 9 :: rest := by
  constructor
  · intro mark
    obtain ⟨enough, number⟩ := of_decide_eq_true mark
    match bytes, enough with
    | first :: second :: third :: rest, _ =>
        have value : first.toNat * 65536 + (second.toNat * 256 + third.toNat) = 9 := by
          simpa [numberOf] using number
        have bound := third.isLt
        refine ⟨rest, ?_⟩
        rw [show first = 0 from BitVec.eq_of_toNat_eq (by simp; omega),
          show second = 0 from BitVec.eq_of_toNat_eq (by simp; omega),
          show third = 9 from BitVec.eq_of_toNat_eq (by simp; omega)]
  · rintro ⟨rest, rfl⟩
    simp [srsAmf0IsObjectEof, numberOf]

/-- These are the bytes that writing the end mark writes. -/
theorem object_eof_bytes : objectEofBytes = [0, 0, 9] := by decide

/-- The end mark is read back. -/
theorem read_object_eof_bytes (rest : List Byte) : readObjectEof (objectEofBytes ++ rest) = .ok ((), rest) := by
  have read := read_number_bytes 2 (by decide) (0 : BitVec 16) ([9] ++ rest)
  have marks : objectEofBytes ++ rest = bytesOf 2 (0 : BitVec 16).toNat ++ ([9] ++ rest) := by
    rw [object_eof_bytes]
    rfl
  rw [marks]
  refine (bind_read read).trans ?_
  rw [if_pos rfl]
  exact read_marker_cons RTMP_AMF0_ObjectEnd rest

/-- A value begins with its marker, and only the end mark looks like the end mark. -/
theorem discovery_marker (marker : Byte) (rest : List Byte) (kind : Kind) (found : kindOf marker = some kind)
    (noMark : ¬ ∃ back, marker :: rest = 0 :: 0 :: 9 :: back) :
    discovery (marker :: rest) = .ok (kind, marker :: rest) := by
  have none : srsAmf0IsObjectEof (marker :: rest) = false := by
    rw [← Bool.not_eq_true, is_object_eof_iff]
    exact noMark
  simp only [discovery, none, Bool.false_eq_true, if_false, List.head?_cons, found]

/-- A marker other than that of a number is not the first byte of the end mark. -/
theorem discovery_nonzero (marker : Byte) (rest : List Byte) (kind : Kind) (found : kindOf marker = some kind)
    (nonzero : marker ≠ 0) : discovery (marker :: rest) = .ok (kind, marker :: rest) := by
  apply discovery_marker marker rest kind found
  rintro ⟨back, mark⟩
  exact nonzero (List.cons.inj mark).1

/-- The highest bits of a number tell it from the end mark. -/
theorem number_no_mark (value : BitVec 64) (rest back : List Byte) (high : value.toNat / 2 ^ 48 ≠ 0x0009) :
    RTMP_AMF0_Number :: (bytesOf 8 value.toNat ++ rest) ≠ 0 :: 0 :: 9 :: back := by
  intro mark
  have bytes := (List.cons.inj mark).2
  simp only [bytesOf, List.cons_append, List.cons.injEq] at bytes
  have first : value.toNat / 256 ^ 7 % 256 = 0 := by simpa using congrArg BitVec.toNat bytes.1
  have second : value.toNat / 256 ^ 6 % 256 = 9 := by simpa using congrArg BitVec.toNat bytes.2.1
  have bound := value.isLt
  omega

/-- The end mark is not in front of a property: behind a name of no bytes there is the
marker of a value, which is never that of the end. -/
theorem property_no_mark (name rest back : List Byte) (value : Any) (short : name.length < 2 ^ 15) :
    utf8Bytes name ++ (value.bytes ++ rest) ≠ 0 :: 0 :: 9 :: back := by
  intro mark
  have size : (BitVec.ofNat 16 name.length).toNat = name.length := by
    rw [BitVec.toNat_ofNat]
    omega
  simp only [utf8Bytes, size, bytesOf, List.cons_append, List.nil_append, List.cons.injEq] at mark
  have first : name.length / 256 ^ 1 % 256 = 0 := by simpa using congrArg BitVec.toNat mark.1
  have second : name.length % 256 = 0 := by simpa using congrArg BitVec.toNat mark.2.1
  have none : name = [] := List.eq_nil_of_length_eq_zero (by omega)
  have third := mark.2.2
  rw [none, List.nil_append] at third
  cases value <;> simp [Any.bytes, objectEofBytes, bytesOf, RTMP_AMF0_String, RTMP_AMF0_Boolean,
    RTMP_AMF0_Number, RTMP_AMF0_Null, RTMP_AMF0_Undefined, RTMP_AMF0_Object, RTMP_AMF0_EcmaArray,
    RTMP_AMF0_StrictArray, RTMP_AMF0_Date] at third

/-! ### Round trips -/

def Properties.append : Properties → Properties → Properties
  | .nil, back => back
  | .cons name value rest, back => .cons name value (rest.append back)

def Elements.append : Elements → Elements → Elements
  | .nil, back => back
  | .cons value rest, back => .cons value (rest.append back)

/-- Nothing behind properties leaves them as they are. -/
theorem properties_append_nil (front : Properties) : front.append .nil = front := by
  cases front with
  | nil => rfl
  | cons name value rest => rw [Properties.append, properties_append_nil rest]

/-- Nothing behind elements leaves them as they are. -/
theorem elements_append_nil (front : Elements) : front.append .nil = front := by
  cases front with
  | nil => rfl
  | cons value rest => rw [Elements.append, elements_append_nil rest]

/-- A property pushed behind the front ones stands before the back ones. -/
theorem push_back_append (name : List Byte) (value : Any) (back front : Properties) :
    (front.pushBack name value).append back = front.append (.cons name value back) := by
  cases front with
  | nil => rfl
  | cons first property rest =>
      rw [Properties.pushBack, Properties.append, push_back_append name value back rest]
      rfl

/-- An element pushed behind the front ones stands before the back ones. -/
theorem elements_push_back_append (value : Any) (back front : Elements) :
    (front.pushBack value).append back = front.append (.cons value back) := by
  cases front with
  | nil => rfl
  | cons first rest =>
      rw [Elements.pushBack, Elements.append, elements_push_back_append value back rest]
      rfl

/-- The name of a property that is pushed back is the last one. -/
theorem push_back_names (name : List Byte) (value : Any) (properties : Properties) :
    (properties.pushBack name value).names = properties.names ++ [name] := by
  cases properties with
  | nil => rfl
  | cons first property rest =>
      rw [Properties.pushBack, Properties.names, push_back_names name value rest]
      rfl

/-- Erasing a name that is not there changes nothing. -/
theorem erase_absent (name : List Byte) (properties : Properties) (absent : name ∉ properties.names) :
    properties.erase name = properties := by
  cases properties with
  | nil => rfl
  | cons first property rest =>
      rw [Properties.names, List.mem_cons, not_or] at absent
      rw [Properties.erase, if_neg absent.1, erase_absent name rest absent.2]

/-- A new name is set behind the others. -/
theorem set_absent (properties : Properties) (name : List Byte) (value : Any)
    (absent : name ∉ properties.names) : properties.set name value = properties.pushBack name value := by
  rw [Properties.set, erase_absent name properties absent]

/-- The loop over properties ends at the end mark. -/
theorem read_properties_end (readValue : Reading Any) (fuel : Nat) (properties : Properties)
    (rest : List Byte) : readProperties readValue (fuel + 1) properties (objectEofBytes ++ rest) =
      .ok (properties, rest) := by
  have mark : srsAmf0IsObjectEof (objectEofBytes ++ rest) = true := by
    rw [is_object_eof_iff, object_eof_bytes]
    exact ⟨rest, rfl⟩
  have some : ¬ (objectEofBytes ++ rest).isEmpty = true := by simp [object_eof_bytes]
  rw [readProperties, get_read, if_neg some, if_pos mark]
  exact bind_read (read_object_eof_bytes rest)

/-- A round of the loop over properties. -/
theorem read_properties_next (readValue : Reading Any) (fuel : Nat) (properties : Properties)
    (name rest behind : List Byte) (value : Any) (short : name.length < 2 ^ 15)
    (read : readValue (value.bytes ++ rest) = .ok (value, behind)) :
    readProperties readValue (fuel + 1) properties (utf8Bytes name ++ (value.bytes ++ rest)) =
      readProperties readValue fuel (properties.set name value) behind := by
  have noMark : ¬ srsAmf0IsObjectEof (utf8Bytes name ++ (value.bytes ++ rest)) = true := by
    rw [is_object_eof_iff]
    rintro ⟨back, mark⟩
    exact property_no_mark name rest back value short mark
  have some : ¬ (utf8Bytes name ++ (value.bytes ++ rest)).isEmpty = true := by simp [utf8Bytes, bytesOf]
  rw [readProperties, get_read, if_neg some, if_neg noMark]
  refine (bind_read (read_utf8_bytes name _ short)).trans ?_
  exact bind_read read

/-- The loop over elements ends when none is left to come. -/
theorem read_elements_end (readValue : Reading Any) (fuel : Nat) (properties : Elements) (bytes : List Byte) :
    readElements readValue (fuel + 1) 0 properties bytes = .ok (properties, bytes) := by
  rw [readElements, get_read, if_pos (.inl rfl)]
  rfl

/-- Every value has a byte. -/
theorem any_bytes_ne_nil (value : Any) : value.bytes ≠ [] := by
  cases value <;> simp [Any.bytes, object_eof_bytes]

/-- A round of the loop over elements. -/
theorem read_elements_next (readValue : Reading Any) (fuel left : Nat) (properties : Elements)
    (rest behind : List Byte) (value : Any) (read : readValue (value.bytes ++ rest) = .ok (value, behind)) :
    readElements readValue (fuel + 1) (left + 1) properties (value.bytes ++ rest) =
      readElements readValue fuel left (properties.pushBack value) behind := by
  have more : ¬ (left + 1 = 0 ∨ (value.bytes ++ rest).isEmpty = true) := by
    simp [any_bytes_ne_nil value]
  rw [readElements, get_read, if_neg more]
  exact bind_read read

/-- A text behind its marker is read back. -/
theorem read_string_bytes (value rest : List Byte) (short : value.length < 2 ^ 15) :
    srsAmf0ReadString (RTMP_AMF0_String :: (utf8Bytes value ++ rest)) = .ok (value, rest) :=
  (bind_read (read_marker_cons RTMP_AMF0_String _)).trans (read_utf8_bytes value rest short)

/-- A truth value behind its marker is read back from one byte. -/
theorem read_boolean_bytes (value : Bool) (rest : List Byte) :
    srsAmf0ReadBoolean (RTMP_AMF0_Boolean :: (if value then 1 else 0) :: rest) = .ok (value, rest) := by
  have read := read_number_bytes 1 (by decide) (if value then 1 else 0 : Byte) rest
  rw [bytes_one] at read
  refine (bind_read (read_marker_cons RTMP_AMF0_Boolean _)).trans ?_
  refine (bind_read read).trans ?_
  cases value with
  | false => rfl
  | true => rfl

/-- A number behind its marker is read back from its eight bytes. -/
theorem read_float_bytes (value : BitVec 64) (rest : List Byte) :
    srsAmf0ReadNumber (RTMP_AMF0_Number :: (bytesOf 8 value.toNat ++ rest)) = .ok (value, rest) :=
  (bind_read (read_marker_cons RTMP_AMF0_Number _)).trans (read_number_bytes 8 (by decide) value rest)

/-- A date behind its marker is read back with its time zone. -/
theorem read_date_bytes (value : BitVec 64) (timeZone : BitVec 16) (rest : List Byte) :
    readDate (RTMP_AMF0_Date :: (bytesOf 8 value.toNat ++ (bytesOf 2 timeZone.toNat ++ rest))) =
      .ok (.date value timeZone, rest) := by
  refine (bind_read (read_marker_cons RTMP_AMF0_Date _)).trans ?_
  refine (bind_read (read_number_bytes 8 (by decide) value _)).trans ?_
  exact bind_read (read_number_bytes 2 (by decide) timeZone rest)

mutual

/-- What is written of a value is read back as the value, and no more is taken, on a stack
that is as deep as the value. -/
theorem read_any_bytes : (value : Any) → value.Storable → (rounds stack : Nat) → (rest : List Byte) →
    (value.bytes ++ rest).length < rounds → value.depth ≤ stack →
    readAny rounds stack (value.bytes ++ rest) = .ok (value, rest)
  | value, _, _, 0, _, _, deep => absurd (depth_positive value) (Nat.not_lt.mpr deep)
  | .string value, storable, rounds, stack + 1, rest, _, _ => by
      rw [readAny]
      refine (bind_read (discovery_nonzero RTMP_AMF0_String _ .string rfl (by decide))).trans ?_
      exact bind_read (read_string_bytes value rest storable)
  | .boolean value, _, rounds, stack + 1, rest, _, _ => by
      rw [readAny]
      refine (bind_read (discovery_nonzero RTMP_AMF0_Boolean _ .boolean rfl (by decide))).trans ?_
      exact bind_read (read_boolean_bytes value rest)
  | .number value, storable, rounds, stack + 1, rest, _, _ => by
      have noMark : ¬ ∃ back, RTMP_AMF0_Number :: (bytesOf 8 value.toNat ++ rest) = 0 :: 0 :: 9 :: back := by
        rintro ⟨back, mark⟩
        exact number_no_mark value rest back storable mark
      rw [readAny]
      refine (bind_read (discovery_marker RTMP_AMF0_Number _ .number rfl noMark)).trans ?_
      exact bind_read (read_float_bytes value rest)
  | .null, _, rounds, stack + 1, rest, _, _ => by
      rw [readAny]
      refine (bind_read (discovery_nonzero RTMP_AMF0_Null _ .null rfl (by decide))).trans ?_
      exact bind_read (read_marker_cons RTMP_AMF0_Null rest)
  | .undefined, _, rounds, stack + 1, rest, _, _ => by
      rw [readAny]
      refine (bind_read (discovery_nonzero RTMP_AMF0_Undefined _ .undefined rfl (by decide))).trans ?_
      exact bind_read (read_marker_cons RTMP_AMF0_Undefined rest)
  | .objectEof, _, rounds, stack + 1, rest, _, _ => by
      have mark : srsAmf0IsObjectEof (objectEofBytes ++ rest) = true := by
        rw [is_object_eof_iff, object_eof_bytes]
        exact ⟨rest, rfl⟩
      have found : discovery (objectEofBytes ++ rest) = .ok (.objectEof, objectEofBytes ++ rest) := by
        rw [discovery, if_pos mark]
      rw [readAny, Any.bytes]
      refine (bind_read found).trans ?_
      exact bind_read (read_object_eof_bytes rest)
  | .object properties, storable, rounds, stack + 1, rest, long, deep => by
      obtain ⟨distinct, inside⟩ := storable
      have parts : (Any.object properties).bytes ++ rest =
          RTMP_AMF0_Object :: (properties.bytes ++ (objectEofBytes ++ rest)) := by
        simp only [Any.bytes, List.cons_append, List.append_assoc]
      rw [parts] at long ⊢
      rw [List.length_cons] at long
      have read := read_properties_bytes properties inside rounds stack rounds .nil rest distinct
        (by omega) (by omega) (Nat.le_of_succ_le_succ deep)
      rw [readAny]
      refine (bind_read (discovery_nonzero RTMP_AMF0_Object _ .object rfl (by decide))).trans ?_
      refine (bind_read (read_marker_cons RTMP_AMF0_Object _)).trans ?_
      exact bind_read read
  | .ecmaArray count properties, storable, rounds, stack + 1, rest, long, deep => by
      obtain ⟨distinct, inside⟩ := storable
      have parts : (Any.ecmaArray count properties).bytes ++ rest = RTMP_AMF0_EcmaArray ::
          (bytesOf 4 count.toNat ++ (properties.bytes ++ (objectEofBytes ++ rest))) := by
        simp only [Any.bytes, List.cons_append, List.append_assoc]
      rw [parts] at long ⊢
      rw [List.length_cons, List.length_append] at long
      have read := read_properties_bytes properties inside rounds stack rounds .nil rest distinct
        (by omega) (by omega) (Nat.le_of_succ_le_succ deep)
      rw [readAny]
      refine (bind_read (discovery_nonzero RTMP_AMF0_EcmaArray _ .ecmaArray rfl (by decide))).trans ?_
      refine (bind_read (read_marker_cons RTMP_AMF0_EcmaArray _)).trans ?_
      refine (bind_read (read_number_bytes 4 (by decide) count _)).trans ?_
      exact bind_read read
  | .strictArray count properties, storable, rounds, stack + 1, rest, long, deep => by
      obtain ⟨number, inside⟩ := storable
      have parts : (Any.strictArray count properties).bytes ++ rest = RTMP_AMF0_StrictArray ::
          (bytesOf 4 count.toNat ++ (properties.bytes ++ rest)) := by
        simp only [Any.bytes, List.cons_append, List.append_assoc]
      rw [parts] at long ⊢
      rw [List.length_cons, List.length_append, bytes_length] at long
      have read := read_elements_bytes properties inside rounds stack rounds .nil rest (by omega) (by omega)
        (Nat.le_of_succ_le_succ deep)
      rw [← number] at read
      rw [readAny]
      refine (bind_read (discovery_nonzero RTMP_AMF0_StrictArray _ .strictArray rfl (by decide))).trans ?_
      refine (bind_read (read_marker_cons RTMP_AMF0_StrictArray _)).trans ?_
      refine (bind_read (read_number_bytes 4 (by decide) count _)).trans ?_
      exact bind_read read
  | .date value timeZone, _, rounds, stack + 1, rest, _, _ => by
      have parts : (Any.date value timeZone).bytes ++ rest = RTMP_AMF0_Date ::
          (bytesOf 8 value.toNat ++ (bytesOf 2 timeZone.toNat ++ rest)) := by
        simp only [Any.bytes, List.cons_append, List.append_assoc]
      rw [parts, readAny]
      refine (bind_read (discovery_nonzero RTMP_AMF0_Date _ .date rfl (by decide))).trans ?_
      exact read_date_bytes value timeZone rest

/-- Properties that are read join those before them, up to the end mark. -/
theorem read_properties_bytes : (properties : Properties) → properties.Storable → (rounds stack left : Nat) →
    (before : Properties) → (rest : List Byte) → (before.names ++ properties.names).Nodup →
    (properties.bytes ++ (objectEofBytes ++ rest)).length < rounds →
    (properties.bytes ++ (objectEofBytes ++ rest)).length < left → properties.depth ≤ stack →
    readProperties (readAny rounds stack) left before (properties.bytes ++ (objectEofBytes ++ rest)) =
      .ok (before.append properties, rest)
  | _, _, _, _, 0, _, _, _, _, many, _ => absurd many (Nat.not_lt_zero _)
  | .nil, _, rounds, stack, left + 1, before, rest, _, _, _, _ => by
      rw [properties_append_nil]
      exact read_properties_end (readAny rounds stack) left before rest
  | .cons name value behind, storable, rounds, stack, left + 1, before, rest, distinct, long, many, deep => by
      obtain ⟨short, first, others⟩ := storable
      obtain ⟨here, later⟩ := Nat.max_le.mp deep
      have parts : (Properties.cons name value behind).bytes ++ (objectEofBytes ++ rest) =
          utf8Bytes name ++ (value.bytes ++ (behind.bytes ++ (objectEofBytes ++ rest))) := by
        simp only [Properties.bytes, List.append_assoc]
      rw [parts] at long many ⊢
      rw [List.length_append, utf8_bytes_length, utf8Size] at long many
      have read := read_any_bytes value first rounds stack (behind.bytes ++ (objectEofBytes ++ rest)) (by omega) here
      rw [List.length_append] at long many
      rw [Properties.names, List.append_cons] at distinct
      have absent : name ∉ before.names := by
        have front := (List.nodup_append.mp distinct).1
        exact fun present => (List.nodup_append.mp front).2.2 name present name (List.mem_singleton.mpr rfl) rfl
      rw [read_properties_next (readAny rounds stack) left before name _ _ value short read,
        set_absent before name value absent]
      have grown : ((before.pushBack name value).names ++ behind.names).Nodup := by
        rwa [push_back_names]
      rw [read_properties_bytes behind others rounds stack left (before.pushBack name value) rest grown
        (by omega) (by omega) later, push_back_append]

/-- Elements that are read join those before them, up to their count. -/
theorem read_elements_bytes : (properties : Elements) → properties.Storable → (rounds stack left : Nat) →
    (before : Elements) → (rest : List Byte) → (properties.bytes ++ rest).length < rounds →
    (properties.bytes ++ rest).length < left → properties.depth ≤ stack →
    readElements (readAny rounds stack) left properties.count before (properties.bytes ++ rest) =
      .ok (before.append properties, rest)
  | _, _, _, _, 0, _, _, _, many, _ => absurd many (Nat.not_lt_zero _)
  | .nil, _, rounds, stack, left + 1, before, rest, _, _, _ => by
      rw [elements_append_nil]
      exact read_elements_end (readAny rounds stack) left before rest
  | .cons value behind, storable, rounds, stack, left + 1, before, rest, long, many, deep => by
      obtain ⟨first, others⟩ := storable
      obtain ⟨here, later⟩ := Nat.max_le.mp deep
      have parts : (Elements.cons value behind).bytes ++ rest = value.bytes ++ (behind.bytes ++ rest) := by
        simp only [Elements.bytes, List.append_assoc]
      have some := List.length_pos_of_ne_nil (any_bytes_ne_nil value)
      rw [parts] at long many ⊢
      have read := read_any_bytes value first rounds stack (behind.bytes ++ rest) long here
      rw [List.length_append] at long many
      rw [Elements.count, read_elements_next (readAny rounds stack) left behind.count before _ _ value read,
        read_elements_bytes behind others rounds stack left (before.pushBack value) rest (by omega) (by omega) later,
        elements_push_back_append]

end

/-- What was written of a value, wherever in a buffer, is read back as the value, and what
comes behind it is left. -/
theorem written_value_read (value : Any) (buffer after : Buffer) (storable : value.Storable)
    (written : value.write buffer = .ok ((), after)) :
    ∃ bytes, after.written = buffer.written ++ bytes ∧
      ∀ rest, srsAmf0ReadAny (bytes ++ rest) = .ok (value, rest) := by
  rw [any_writes value buffer, put] at written
  split at written
  case isTrue =>
    cases written
    refine ⟨value.bytes, rfl, ?_⟩
    intro rest
    have deep : value.depth ≤ (value.bytes ++ rest).length + 1 := by
      have levels := depth_le_bytes value
      rw [List.length_append]
      omega
    exact read_any_bytes value storable _ _ rest (Nat.lt_succ_self _) deep
  case isFalse => cases written

/-- An object with a text and a list in it, behind a byte that was there before. -/
theorem written_object_read : ∃ bytes,
    [7, 0x03, 0, 1, 97, 0x02, 0, 1, 98, 0, 1, 99, 0x0A, 0, 0, 0, 1, 0x05, 0, 0, 9] = [7] ++ bytes ∧
      ∀ rest, srsAmf0ReadAny (bytes ++ rest) =
        .ok (.object (.cons [97] (.string [98]) (.cons [99] (.strictArray 1 (.cons .null .nil)) .nil)), rest) :=
  written_value_read
    (.object (.cons [97] (.string [98]) (.cons [99] (.strictArray 1 (.cons .null .nil)) .nil)))
    ⟨[7], 20⟩ ⟨[7, 0x03, 0, 1, 97, 0x02, 0, 1, 98, 0, 1, 99, 0x0A, 0, 0, 0, 1, 0x05, 0, 0, 9], 0⟩
    (by simp [Any.Storable, Properties.Storable, Elements.Storable, Properties.names, Elements.count])
    rfl

end IotCamera.Rtmp.Amf0
