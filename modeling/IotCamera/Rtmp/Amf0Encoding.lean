import IotCamera.Rtmp.Amf0

/-!
# What AMF0 values look like on the wire

The bytes of a value, put together from its parts, and that the writing functions of
`srs_rtmp_amf0.cpp` write just these: `total_size` tells the room they need, and with less
room they fail.
-/

namespace IotCamera.Rtmp.Amf0

open Codecs BigEndian

def utf8Bytes (value : List Byte) : List Byte := bytesOf 2 (BitVec.ofNat 16 value.length).toNat ++ value

def objectEofBytes : List Byte := bytesOf 2 0 ++ bytesOf 1 RTMP_AMF0_ObjectEnd.toNat

mutual

def Any.bytes : Any → List Byte
  | .string value => RTMP_AMF0_String :: utf8Bytes value
  | .boolean value => [RTMP_AMF0_Boolean, if value then 1 else 0]
  | .number value => RTMP_AMF0_Number :: bytesOf 8 value.toNat
  | .null => [RTMP_AMF0_Null]
  | .undefined => [RTMP_AMF0_Undefined]
  | .objectEof => objectEofBytes
  | .object properties => RTMP_AMF0_Object :: (properties.bytes ++ objectEofBytes)
  | .ecmaArray count properties =>
      RTMP_AMF0_EcmaArray :: (bytesOf 4 count.toNat ++ (properties.bytes ++ objectEofBytes))
  | .strictArray count properties =>
      RTMP_AMF0_StrictArray :: (bytesOf 4 count.toNat ++ properties.bytes)
  | .date value timeZone => RTMP_AMF0_Date :: (bytesOf 8 value.toNat ++ bytesOf 2 timeZone.toNat)

def Properties.bytes : Properties → List Byte
  | .nil => []
  | .cons name value rest => utf8Bytes name ++ (value.bytes ++ rest.bytes)

def Elements.bytes : Elements → List Byte
  | .nil => []
  | .cons value rest => value.bytes ++ rest.bytes

end

/-- A single byte is its own number. -/
theorem bytes_one (value : Byte) : bytesOf 1 value.toNat = [value] := by
  simp [bytesOf]

/-- A marker is written as one byte. -/
theorem marker_writes (marker : Byte) : Writes .ERROR_RTMP_AMF0_ENCODE [marker] (writeMarker marker) := by
  have written : Writes .ERROR_RTMP_AMF0_ENCODE (bytesOf 1 marker.toNat) (writeMarker marker) :=
    put_writes _ _
  rwa [bytes_one] at written

/-- A number is written as its bytes. -/
theorem number_writes {width : Nat} (count : Nat) (value : BitVec width) :
    Writes .ERROR_RTMP_AMF0_ENCODE (bytesOf count value.toNat) (writeNumber count value) :=
  put_writes _ _

/-- The empty string is its length only. -/
theorem utf8_writes (value : List Byte) :
    Writes .ERROR_RTMP_AMF0_ENCODE (utf8Bytes value) (srsAmf0WriteUtf8 value) := by
  apply Writes.append (number_writes 2 (BitVec.ofNat 16 value.length))
  split
  case isTrue empty =>
    have none : value = [] := List.eq_nil_of_length_eq_zero (Nat.le_zero.mp empty)
    rw [none]
    exact pure_writes _
  case isFalse => exact put_writes _ _

/-- The end mark is written as its three bytes. -/
theorem object_eof_writes : Writes .ERROR_RTMP_AMF0_ENCODE objectEofBytes srsAmf0WriteObjectEof :=
  (number_writes 2 (0 : BitVec 16)).append (number_writes 1 RTMP_AMF0_ObjectEnd)

/-- A truth value is written as its marker and one byte. -/
theorem boolean_writes (value : Bool) :
    Writes .ERROR_RTMP_AMF0_ENCODE [RTMP_AMF0_Boolean, if value then 1 else 0] (srsAmf0WriteBoolean value) := by
  cases value with
  | false => exact (marker_writes RTMP_AMF0_Boolean).append (marker_writes 0)
  | true => exact (marker_writes RTMP_AMF0_Boolean).append (marker_writes 1)

mutual

/-- Writing a value writes its bytes. -/
theorem any_writes : (value : Any) → Writes .ERROR_RTMP_AMF0_ENCODE value.bytes value.write
  | .string value => (marker_writes RTMP_AMF0_String).append (utf8_writes value)
  | .boolean value => boolean_writes value
  | .number value => (marker_writes RTMP_AMF0_Number).append (number_writes 8 value)
  | .null => marker_writes RTMP_AMF0_Null
  | .undefined => marker_writes RTMP_AMF0_Undefined
  | .objectEof => object_eof_writes
  | .object properties =>
      (marker_writes RTMP_AMF0_Object).append ((properties_write properties).append object_eof_writes)
  | .ecmaArray count properties =>
      (marker_writes RTMP_AMF0_EcmaArray).append
        ((number_writes 4 count).append ((properties_write properties).append object_eof_writes))
  | .strictArray count properties =>
      (marker_writes RTMP_AMF0_StrictArray).append
        ((number_writes 4 count).append (elements_write properties))
  | .date value timeZone =>
      (marker_writes RTMP_AMF0_Date).append ((number_writes 8 value).append (number_writes 2 timeZone))

/-- Properties are written one after the other, each behind its name. -/
theorem properties_write : (properties : Properties) →
    Writes .ERROR_RTMP_AMF0_ENCODE properties.bytes properties.write
  | .nil => pure_writes _
  | .cons name value rest =>
      (utf8_writes name).append ((any_writes value).append (properties_write rest))

/-- Elements are written one after the other. -/
theorem elements_write : (properties : Elements) →
    Writes .ERROR_RTMP_AMF0_ENCODE properties.bytes properties.write
  | .nil => pure_writes _
  | .cons value rest => (any_writes value).append (elements_write rest)

end

/-- `SrsAmf0Size::utf8` is the size of a text with its length. -/
theorem utf8_bytes_length (value : List Byte) : (utf8Bytes value).length = utf8Size value := by
  simp [utf8Bytes, utf8Size]

mutual

/-- `total_size` is the number of bytes. -/
theorem any_bytes_length : (value : Any) → value.bytes.length = value.totalSize
  | .string value => by
      simp only [Any.bytes, Any.totalSize, List.length_cons, utf8_bytes_length]
      omega
  | .boolean _ => rfl
  | .number _ => rfl
  | .null => rfl
  | .undefined => rfl
  | .objectEof => rfl
  | .object properties => by
      have inside := properties_bytes_length properties
      simp only [Any.bytes, Any.totalSize, objectEofBytes, List.length_cons, List.length_append,
        bytes_length, inside]
      omega
  | .ecmaArray count properties => by
      have inside := properties_bytes_length properties
      simp only [Any.bytes, Any.totalSize, objectEofBytes, List.length_cons, List.length_append,
        bytes_length, inside]
      omega
  | .strictArray count properties => by
      have inside := elements_bytes_length properties
      simp only [Any.bytes, Any.totalSize, List.length_cons, List.length_append, bytes_length, inside]
      omega
  | .date _ _ => rfl

/-- The total size of properties is the number of their bytes. -/
theorem properties_bytes_length : (properties : Properties) →
    properties.bytes.length = properties.totalSize
  | .nil => rfl
  | .cons name value rest => by
      have inside := any_bytes_length value
      have behind := properties_bytes_length rest
      simp only [Properties.bytes, Properties.totalSize, List.length_append, utf8_bytes_length, inside,
        behind]
      omega

/-- The total size of elements is the number of their bytes. -/
theorem elements_bytes_length : (properties : Elements) →
    properties.bytes.length = properties.totalSize
  | .nil => rfl
  | .cons value rest => by
      have inside := any_bytes_length value
      have behind := elements_bytes_length rest
      simp only [Elements.bytes, Elements.totalSize, List.length_append, inside, behind]

end

/-- A value is written when there is room for its `total_size`, and then takes just that;
with less room nothing but the error comes back. -/
theorem write_fills_total_size (value : Any) :
    ∃ bytes : List Byte, bytes.length = value.totalSize ∧ ∀ buffer : Buffer, value.write buffer =
      if value.totalSize ≤ buffer.left then
        .ok ((), ⟨buffer.written ++ bytes, buffer.left - value.totalSize⟩)
      else
        .error .ERROR_RTMP_AMF0_ENCODE := by
  refine ⟨value.bytes, any_bytes_length value, ?_⟩
  intro buffer
  rw [any_writes value buffer, put, any_bytes_length]

end IotCamera.Rtmp.Amf0
