import IotCamera.Base.BigEndian
import IotCamera.Base.Codecs

/-!
# AMF0 values

`srs_rtmp_amf0.cpp` reads and writes the values that the commands of RTMP are made of: a
marker byte and what belongs to it, objects and arrays with further values inside. Each
step looks with `require` whether the stream has the bytes it needs. A stream is read from
the bytes that are left of it, and written as a buffer with its remaining room; behind an
error every caller gives the stream up, so it is not kept.

A `double` is its pattern of 64 bits, which is all that reading and writing move, and a
string is its bytes. Objects are shorter than 2^31 bytes, as `int` sizes have to be. The
stack of the thread is counted in calls of `srs_amf0_read_any`, which are as deep inside one
another as the values that a stream nests.
-/

namespace IotCamera.Rtmp.Amf0

open Codecs BigEndian

inductive Failure where
  | ERROR_RTMP_AMF0_DECODE
  | ERROR_RTMP_AMF0_INVALID
  | ERROR_RTMP_AMF0_ENCODE
  /-- A call finds no room left on the stack of the thread. No check of the source comes before it. -/
  | stackOverflow
  /-- The bound on the rounds of a loop is used up; no reading of a stream ends this way. -/
  | exhausted
  deriving DecidableEq, Repr

abbrev Reading := ByteReader Failure

abbrev Writing := ByteWriter Failure Unit

def RTMP_AMF0_Number : Byte := 0x00
def RTMP_AMF0_Boolean : Byte := 0x01
def RTMP_AMF0_String : Byte := 0x02
def RTMP_AMF0_Object : Byte := 0x03
def RTMP_AMF0_Null : Byte := 0x05
def RTMP_AMF0_Undefined : Byte := 0x06
def RTMP_AMF0_EcmaArray : Byte := 0x08
def RTMP_AMF0_ObjectEnd : Byte := 0x09
def RTMP_AMF0_StrictArray : Byte := 0x0A
def RTMP_AMF0_Date : Byte := 0x0B

mutual

/-- A `SrsAmf0Any` with the members of its class. The counts that arrays were sent with are
kept beside what is in them. -/
inductive Any where
  | string (value : List Byte)
  | boolean (value : Bool)
  | number (value : BitVec 64)
  | null
  | undefined
  | objectEof
  | object (properties : Properties)
  | ecmaArray (count : BitVec 32) (properties : Properties)
  | strictArray (count : BitVec 32) (properties : Elements)
  | date (value : BitVec 64) (timeZone : BitVec 16)

/-- A `SrsUnSortedHashtable`: names and values in the order of their arrival. -/
inductive Properties where
  | nil
  | cons (name : List Byte) (value : Any) (rest : Properties)

inductive Elements where
  | nil
  | cons (value : Any) (rest : Elements)

end

namespace Properties

def names : Properties → List (List Byte)
  | nil => []
  | cons name _ rest => name :: rest.names

def pushBack (name : List Byte) (value : Any) : Properties → Properties
  | nil => cons name value nil
  | cons first property rest => cons first property (rest.pushBack name value)

/-- The first property of the name goes. -/
def erase (name : List Byte) : Properties → Properties
  | nil => nil
  | cons first property rest => if name = first then rest else cons first property (rest.erase name)

/-- `set` with a value that is there. -/
def set (properties : Properties) (name : List Byte) (value : Any) : Properties :=
  (properties.erase name).pushBack name value

end Properties

namespace Elements

def count : Elements → Nat
  | nil => 0
  | cons _ rest => rest.count + 1

def pushBack (value : Any) : Elements → Elements
  | nil => cons value nil
  | cons first rest => cons first (rest.pushBack value)

end Elements

/-! ### Reading -/

/-- The next bytes after a `require` for them. -/
def readBytes (count : Nat) : Reading (List Byte) := take .ERROR_RTMP_AMF0_DECODE count

def readNumber (width count : Nat) : Reading (BitVec width) := do
  return BitVec.ofNat width (numberOf (← readBytes count))

/-- The marker a class expects in front of its value. -/
def readMarker (marker : Byte) : Reading Unit := do
  if (← readNumber 8 1) = marker then
    return ()
  else
    throw .ERROR_RTMP_AMF0_DECODE

def srsAmf0ReadUtf8 : Reading (List Byte) := do
  let len ← readNumber 16 2
  if len.toInt ≤ 0 then
    return []
  else
    readBytes len.toNat

def srsAmf0ReadString : Reading (List Byte) := do
  readMarker RTMP_AMF0_String
  srsAmf0ReadUtf8

def srsAmf0ReadBoolean : Reading Bool := do
  readMarker RTMP_AMF0_Boolean
  return (← readNumber 8 1) ≠ 0

def srsAmf0ReadNumber : Reading (BitVec 64) := do
  readMarker RTMP_AMF0_Number
  readNumber 64 8

def srsAmf0ReadNull : Reading Unit := readMarker RTMP_AMF0_Null

def srsAmf0ReadUndefined : Reading Unit := readMarker RTMP_AMF0_Undefined

/-- `SrsAmf0ObjectEOF::read`. -/
def readObjectEof : Reading Unit := do
  if (← readNumber 16 2) = 0 then
    readMarker RTMP_AMF0_ObjectEnd
  else
    throw .ERROR_RTMP_AMF0_DECODE

/-- `SrsAmf0Date::read`. -/
def readDate : Reading Any := do
  readMarker RTMP_AMF0_Date
  let value ← readNumber 64 8
  let timeZone ← readNumber 16 2
  return .date value timeZone

def srsAmf0IsObjectEof (bytes : List Byte) : Bool :=
  3 ≤ bytes.length ∧ numberOf (bytes.take 3) = 0x09

/-- The class that `discovery` makes a value of. -/
inductive Kind where
  | string
  | boolean
  | number
  | null
  | undefined
  | objectEof
  | object
  | ecmaArray
  | strictArray
  | date
  deriving DecidableEq, Repr

/-- The `switch` of `discovery`. -/
def kindOf (marker : Byte) : Option Kind :=
  if marker = RTMP_AMF0_String then some .string
  else if marker = RTMP_AMF0_Boolean then some .boolean
  else if marker = RTMP_AMF0_Number then some .number
  else if marker = RTMP_AMF0_Null then some .null
  else if marker = RTMP_AMF0_Undefined then some .undefined
  else if marker = RTMP_AMF0_Object then some .object
  else if marker = RTMP_AMF0_EcmaArray then some .ecmaArray
  else if marker = RTMP_AMF0_StrictArray then some .strictArray
  else if marker = RTMP_AMF0_Date then some .date
  else none

/-- `SrsAmf0Any::discovery` looks at the stream and leaves it where it is. -/
def discovery : Reading Kind := fun bytes =>
  if srsAmf0IsObjectEof bytes then
    .ok (.objectEof, bytes)
  else
    match bytes.head? with
    | none => .error .ERROR_RTMP_AMF0_DECODE
    | some marker =>
        match kindOf marker with
        | none => .error .ERROR_RTMP_AMF0_INVALID
        | some kind => .ok (kind, bytes)

/-- The loop over the properties of an object or an ecma array. It ends at the end mark,
and also where the stream ends. -/
def readProperties (readValue : Reading Any) : Nat → Properties → Reading Properties
  | 0, _ => throw .exhausted
  | fuel + 1, properties => do
      let bytes ← get
      if bytes.isEmpty then
        return properties
      else if srsAmf0IsObjectEof bytes then
        readObjectEof
        return properties
      else
        let name ← srsAmf0ReadUtf8
        let value ← readValue
        readProperties readValue fuel (properties.set name value)

/-- The loop over the elements of a strict array: `left` of them are still to come. -/
def readElements (readValue : Reading Any) : Nat → Nat → Elements → Reading Elements
  | 0, _, _ => throw .exhausted
  | fuel + 1, left, properties => do
      let bytes ← get
      if left = 0 ∨ bytes.isEmpty then
        return properties
      else
        let value ← readValue
        readElements readValue fuel (left - 1) (properties.pushBack value)

/-- `srs_amf0_read_any`, with a bound on the rounds of its loops, and with room on the stack
for a number of its calls inside one another. Nothing but the stack bounds how deep the
values of a stream are nested. -/
def readAny (rounds : Nat) : Nat → Reading Any
  | 0 => throw .stackOverflow
  | stack + 1 => do
      match ← discovery with
      | .string => return .string (← srsAmf0ReadString)
      | .boolean => return .boolean (← srsAmf0ReadBoolean)
      | .number => return .number (← srsAmf0ReadNumber)
      | .null =>
          srsAmf0ReadNull
          return .null
      | .undefined =>
          srsAmf0ReadUndefined
          return .undefined
      | .objectEof =>
          readObjectEof
          return .objectEof
      | .object =>
          readMarker RTMP_AMF0_Object
          return .object (← readProperties (readAny rounds stack) rounds .nil)
      | .ecmaArray =>
          readMarker RTMP_AMF0_EcmaArray
          let count ← readNumber 32 4
          return .ecmaArray count (← readProperties (readAny rounds stack) rounds .nil)
      | .strictArray =>
          readMarker RTMP_AMF0_StrictArray
          let count ← readNumber 32 4
          return .strictArray count (← readElements (readAny rounds stack) rounds count.toInt.toNat .nil)
      | .date => readDate

/-- `srs_amf0_read_any` on a stack for so many of its calls. Every value takes a byte, so a
stream has no more values than bytes, and no loop more rounds. -/
def srsAmf0ReadAnyWithin (stack : Nat) : Reading Any := fun bytes => readAny (bytes.length + 1) stack bytes

/-- `srs_amf0_read_any` on a stack that is deep enough for whatever the bytes are. -/
def srsAmf0ReadAny : Reading Any := fun bytes => srsAmf0ReadAnyWithin (bytes.length + 1) bytes

/-! ### Sizes and writing -/

/-- `SrsAmf0Size::utf8`. -/
def utf8Size (value : List Byte) : Nat := 2 + value.length

mutual

def Any.totalSize : Any → Nat
  | .string value => 1 + utf8Size value
  | .boolean _ => 1 + 1
  | .number _ => 1 + 8
  | .null => 1
  | .undefined => 1
  | .objectEof => 2 + 1
  | .object properties => 1 + properties.totalSize + (2 + 1)
  | .ecmaArray _ properties => 1 + 4 + properties.totalSize + (2 + 1)
  | .strictArray _ properties => 1 + 4 + properties.totalSize
  | .date _ _ => 1 + 8 + 2

def Properties.totalSize : Properties → Nat
  | .nil => 0
  | .cons name value rest => utf8Size name + value.totalSize + rest.totalSize

def Elements.totalSize : Elements → Nat
  | .nil => 0
  | .cons value rest => value.totalSize + rest.totalSize

end

/-- Bytes are written after a `require` for their room. -/
def writeBytes (bytes : List Byte) : Writing := put .ERROR_RTMP_AMF0_ENCODE bytes

def writeNumber {width : Nat} (count : Nat) (value : BitVec width) : Writing :=
  writeBytes (bytesOf count value.toNat)

def writeMarker (marker : Byte) : Writing := writeNumber 1 marker

def srsAmf0WriteUtf8 (value : List Byte) : Writing := do
  writeNumber 2 (BitVec.ofNat 16 value.length)
  if value.length ≤ 0 then
    return ()
  else
    writeBytes value

def srsAmf0WriteString (value : List Byte) : Writing := do
  writeMarker RTMP_AMF0_String
  srsAmf0WriteUtf8 value

def srsAmf0WriteBoolean (value : Bool) : Writing := do
  writeMarker RTMP_AMF0_Boolean
  if value then
    writeNumber 1 (1 : Byte)
  else
    writeNumber 1 (0 : Byte)

def srsAmf0WriteNumber (value : BitVec 64) : Writing := do
  writeMarker RTMP_AMF0_Number
  writeNumber 8 value

def srsAmf0WriteNull : Writing := writeMarker RTMP_AMF0_Null

def srsAmf0WriteUndefined : Writing := writeMarker RTMP_AMF0_Undefined

def srsAmf0WriteObjectEof : Writing := do
  writeNumber 2 (0 : BitVec 16)
  writeMarker RTMP_AMF0_ObjectEnd

/-- `SrsAmf0Date::write`. -/
def writeDate (value : BitVec 64) (timeZone : BitVec 16) : Writing := do
  writeMarker RTMP_AMF0_Date
  writeNumber 8 value
  writeNumber 2 timeZone

mutual

/-- `srs_amf0_write_any`. -/
def Any.write : Any → Writing
  | .string value => srsAmf0WriteString value
  | .boolean value => srsAmf0WriteBoolean value
  | .number value => srsAmf0WriteNumber value
  | .null => srsAmf0WriteNull
  | .undefined => srsAmf0WriteUndefined
  | .objectEof => srsAmf0WriteObjectEof
  | .object properties => do
      writeMarker RTMP_AMF0_Object
      properties.write
      srsAmf0WriteObjectEof
  | .ecmaArray count properties => do
      writeMarker RTMP_AMF0_EcmaArray
      writeNumber 4 count
      properties.write
      srsAmf0WriteObjectEof
  | .strictArray count properties => do
      writeMarker RTMP_AMF0_StrictArray
      writeNumber 4 count
      properties.write
  | .date value timeZone => writeDate value timeZone

def Properties.write : Properties → Writing
  | .nil => return ()
  | .cons name value rest => do
      srsAmf0WriteUtf8 name
      value.write
      rest.write

def Elements.write : Elements → Writing
  | .nil => return ()
  | .cons value rest => do
      value.write
      rest.write

end

end IotCamera.Rtmp.Amf0
