import IotCamera.Rtmp.Amf0Decoding

/-!
# What the AMF0 reader accepts

The reader calls itself for each value inside another, with no limit of its own, and three
bytes of a stream are enough for a level. On a stack that is deep enough for a third of the
bytes it comes to an end on every stream, with a value or with one of its two errors; a
smaller stack overflows on some stream of that length. A value it accepts before the stream
ends can be written and read again. At the end of the stream that need not be so: there the
loops stop without their end mark.
-/

namespace IotCamera.Rtmp.Amf0

open Codecs BigEndian

/-- The errors of reading. -/
def Unreadable (failure : Failure) : Prop :=
  failure = .ERROR_RTMP_AMF0_DECODE ∨ failure = .ERROR_RTMP_AMF0_INVALID

/-! ### Reading ends -/

/-- Reading a number takes its bytes or fails. -/
theorem read_number_ends (limit width count : Nat) :
    Ends Unreadable limit count (readNumber width count) :=
  (take_ends limit count (.inl rfl)).seq fun _ _ => pure_ends _ _ _

/-- Reading a marker takes one byte or fails. -/
theorem read_marker_ends (limit : Nat) (marker : Byte) : Ends Unreadable limit 1 (readMarker marker) := by
  apply (read_number_ends limit 8 1).seq
  intro _ value
  split
  case isTrue => exact pure_ends _ _ _
  case isFalse => exact throw_ends _ _ (.inl rfl)

/-- Reading a text takes at least the two bytes of its length or fails. -/
theorem read_utf8_ends (limit : Nat) : Ends Unreadable limit 2 srsAmf0ReadUtf8 := by
  apply (read_number_ends limit 16 2).seq
  intro _ len
  split
  case isTrue => exact pure_ends _ _ _
  case isFalse => exact (take_ends _ len.toNat (.inl rfl)).mono (Nat.le_refl _) (Nat.zero_le _)

/-- Reading the end mark takes a byte at least or fails. -/
theorem read_object_eof_ends (limit : Nat) : Ends Unreadable limit 1 readObjectEof := by
  have whole : Ends Unreadable limit 2 readObjectEof := by
    apply (read_number_ends limit 16 2).seq
    intro _ value
    split
    case isTrue => exact (read_marker_ends _ _).mono (Nat.le_refl _) (Nat.zero_le _)
    case isFalse => exact throw_ends _ _ (.inl rfl)
  exact whole.mono (Nat.le_refl _) (by omega)

/-- A value behind its marker takes at least the marker. -/
theorem marked_ends {α : Type} (limit : Nat) (marker : Byte) {next : Reading α}
    (ends : 1 ≤ limit → Ends Unreadable (limit - 1) 0 next) :
    Ends Unreadable limit 1 (do readMarker marker; next) :=
  (read_marker_ends limit marker).seq fun some _ => ends some

/-- Reading a text with its marker takes a byte at least or fails. -/
theorem read_string_ends (limit : Nat) : Ends Unreadable limit 1 srsAmf0ReadString :=
  marked_ends limit _ fun _ => (read_utf8_ends _).mono (Nat.le_refl _) (Nat.zero_le _)

/-- So does reading a truth value. -/
theorem read_boolean_ends (limit : Nat) : Ends Unreadable limit 1 srsAmf0ReadBoolean := by
  apply marked_ends limit RTMP_AMF0_Boolean
  intro _
  exact ((read_number_ends _ 8 1).seq fun _ _ => pure_ends _ _ _).mono (Nat.le_refl _) (Nat.zero_le _)

/-- So does reading a number with its marker. -/
theorem read_float_ends (limit : Nat) : Ends Unreadable limit 1 srsAmf0ReadNumber :=
  marked_ends limit _ fun _ => (read_number_ends _ 64 8).mono (Nat.le_refl _) (Nat.zero_le _)

/-- So does reading a date. -/
theorem read_date_ends (limit : Nat) : Ends Unreadable limit 1 readDate := by
  apply marked_ends limit RTMP_AMF0_Date
  intro _
  have fields : Ends Unreadable (limit - 1) 8 (do
      let value ← readNumber 64 8
      let timeZone ← readNumber 16 2
      return Any.date value timeZone) := by
    apply (read_number_ends _ 64 8).seq
    intro _ value
    exact ((read_number_ends _ 16 2).seq fun _ _ => pure_ends _ _ _).mono (Nat.le_refl _) (Nat.zero_le _)
  exact fields.mono (Nat.le_refl _) (Nat.zero_le _)

/-- Looking for the kind of a value takes nothing, and fails at the end and on an unknown
marker. -/
theorem discovery_ends (limit : Nat) : Ends Unreadable limit 0 discovery := by
  intro bytes _
  unfold discovery
  split
  case isTrue => exact .inr ⟨_, [], bytes, rfl, rfl, Nat.le_refl 0⟩
  case isFalse =>
    split
    · exact .inl ⟨_, .inl rfl, rfl⟩
    · split
      · exact .inl ⟨_, .inr rfl, rfl⟩
      · exact .inr ⟨_, [], bytes, rfl, rfl, Nat.le_refl 0⟩

/-- The loop over properties has rounds enough for the bytes that are there, when each of
its values takes some. A value comes behind two bytes at least, the length of its name. -/
theorem read_properties_ends (readValue : Reading Any) (most : Nat)
    (values : 2 ≤ most → Ends Unreadable (most - 2) 1 readValue) (rounds limit : Nat) (properties : Properties)
    (enough : limit < rounds) (bound : limit ≤ most) :
    Ends Unreadable limit 0 (readProperties readValue rounds properties) := by
  induction rounds generalizing limit properties with
  | zero => exact absurd enough (Nat.not_lt_zero _)
  | succ rounds inductionHypothesis =>
      have round : Ends Unreadable limit 2 (do
          let name ← srsAmf0ReadUtf8
          let value ← readValue
          readProperties readValue rounds (properties.set name value)) := by
        apply (read_utf8_ends limit).seq
        intro some name
        have rest : Ends Unreadable (limit - 2) 1 (do
            let value ← readValue
            readProperties readValue rounds (properties.set name value)) := by
          apply ((values (by omega)).mono (by omega) (Nat.le_refl 1)).seq
          intro _ value
          exact inductionHypothesis _ _ (by omega) (by omega)
        exact rest.mono (Nat.le_refl _) (Nat.zero_le _)
      have mark : Ends Unreadable limit 1 (do readObjectEof; return properties) :=
        (read_object_eof_ends limit).seq fun _ _ => pure_ends _ _ _
      intro bytes shorter
      rw [readProperties, get_read]
      split
      case isTrue => exact pure_ends _ limit _ bytes shorter
      case isFalse =>
        split
        case isTrue => exact mark.mono (Nat.le_refl _) (Nat.zero_le _) bytes shorter
        case isFalse => exact round.mono (Nat.le_refl _) (Nat.zero_le _) bytes shorter

/-- The loop over elements has rounds enough, too. -/
theorem read_elements_ends (readValue : Reading Any) (most : Nat)
    (values : Ends Unreadable most 1 readValue) (rounds left limit : Nat) (properties : Elements)
    (enough : limit < rounds) (bound : limit ≤ most) :
    Ends Unreadable limit 0 (readElements readValue rounds left properties) := by
  induction rounds generalizing left limit properties with
  | zero => exact absurd enough (Nat.not_lt_zero _)
  | succ rounds inductionHypothesis =>
      have round : Ends Unreadable limit 1 (do
          let value ← readValue
          readElements readValue rounds (left - 1) (properties.pushBack value)) := by
        apply (values.mono bound (Nat.le_refl 1)).seq
        intro some value
        exact inductionHypothesis _ _ _ (by omega) (by omega)
      intro bytes shorter
      rw [readElements, get_read]
      split
      case isTrue => exact pure_ends _ limit _ bytes shorter
      case isFalse => exact round.mono (Nat.le_refl _) (Nat.zero_le _) bytes shorter

/-- A value is read, or an error comes back. Each level of nesting takes three bytes, the
marker of an object and the length of a name, so a third of the bytes bounds the stack. -/
theorem read_any_ends (rounds stack limit : Nat) (enough : limit < rounds) (deep : limit < 3 * stack) :
    Ends Unreadable limit 1 (readAny rounds stack) := by
  induction stack generalizing limit with
  | zero => exact absurd deep (Nat.not_lt_zero _)
  | succ stack inductionHypothesis =>
      have whole : Ends Unreadable limit (0 + 1) (readAny rounds (stack + 1)) := by
        rw [readAny]
        apply (discovery_ends limit).bind
        intro _ kind
        rw [Nat.sub_zero]
        cases kind with
        | string => exact (read_string_ends limit).seq fun _ _ => pure_ends _ _ _
        | boolean => exact (read_boolean_ends limit).seq fun _ _ => pure_ends _ _ _
        | number => exact (read_float_ends limit).seq fun _ _ => pure_ends _ _ _
        | null => exact (read_marker_ends limit _).seq fun _ _ => pure_ends _ _ _
        | undefined => exact (read_marker_ends limit _).seq fun _ _ => pure_ends _ _ _
        | objectEof => exact (read_object_eof_ends limit).seq fun _ _ => pure_ends _ _ _
        | object =>
            apply marked_ends limit RTMP_AMF0_Object
            intro some
            have inside := read_properties_ends (readAny rounds stack) (limit - 1)
              (fun _ => inductionHypothesis (limit - 1 - 2) (by omega) (by omega)) rounds (limit - 1) .nil
              (by omega) (Nat.le_refl _)
            exact inside.seq fun _ _ => pure_ends _ _ _
        | ecmaArray =>
            apply marked_ends limit RTMP_AMF0_EcmaArray
            intro some
            have counted : Ends Unreadable (limit - 1) 4 (do
                let count ← readNumber 32 4
                return Any.ecmaArray count (← readProperties (readAny rounds stack) rounds .nil)) := by
              apply (read_number_ends _ 32 4).seq
              intro _ count
              have inside := read_properties_ends (readAny rounds stack) (limit - 1 - 4)
                (fun _ => inductionHypothesis (limit - 1 - 4 - 2) (by omega) (by omega)) rounds (limit - 1 - 4) .nil
                (by omega) (Nat.le_refl _)
              exact inside.seq fun _ _ => pure_ends _ _ _
            exact counted.mono (Nat.le_refl _) (Nat.zero_le _)
        | strictArray =>
            apply marked_ends limit RTMP_AMF0_StrictArray
            intro some
            have counted : Ends Unreadable (limit - 1) 4 (do
                let count ← readNumber 32 4
                return Any.strictArray count
                  (← readElements (readAny rounds stack) rounds count.toInt.toNat .nil)) := by
              apply (read_number_ends _ 32 4).seq
              intro room count
              have values := inductionHypothesis (limit - 1 - 4) (by omega) (by omega)
              have inside := read_elements_ends _ _ values rounds count.toInt.toNat (limit - 1 - 4) .nil
                (by omega) (Nat.le_refl _)
              exact inside.seq fun _ _ => pure_ends _ _ _
            exact counted.mono (Nat.le_refl _) (Nat.zero_le _)
        | date => exact read_date_ends limit
      exact whole.mono (Nat.le_refl _) (by omega)

/-- Objects inside one another, each under an empty name. -/
def nestedObjects : Nat → List Byte
  | 0 => []
  | levels + 1 => RTMP_AMF0_Object :: (utf8Bytes [] ++ nestedObjects levels)

/-- Each of them takes three bytes. -/
theorem nested_objects_length (levels : Nat) : (nestedObjects levels).length = 3 * levels := by
  induction levels with
  | zero => rfl
  | succ levels inductionHypothesis =>
      rw [nestedObjects, List.length_cons, List.length_append, utf8_bytes_length, inductionHypothesis, utf8Size,
        List.length_nil]
      omega

/-- As many objects inside one another as there is room on the stack use it up. -/
theorem nested_objects_overflow (rounds stack : Nat) (rest : List Byte) (noMark : ∀ back, rest ≠ 9 :: back) :
    readAny (rounds + 1) stack (nestedObjects stack ++ rest) = .error .stackOverflow := by
  induction stack with
  | zero => rfl
  | succ stack inductionHypothesis =>
      have inner : ∀ back, nestedObjects stack ++ rest ≠ 9 :: back := by
        cases stack with
        | zero => exact noMark
        | succ stack => exact fun back same => absurd (List.cons.inj same).1 (by decide)
      have eof : ¬ srsAmf0IsObjectEof (utf8Bytes [] ++ (nestedObjects stack ++ rest)) = true := by
        rw [is_object_eof_iff]
        rintro ⟨back, mark⟩
        exact inner back (List.cons.inj (List.cons.inj mark).2).2
      have some : ¬ (utf8Bytes [] ++ (nestedObjects stack ++ rest)).isEmpty = true := Bool.false_ne_true
      have properties : readProperties (readAny (rounds + 1) stack) (rounds + 1) .nil
          (utf8Bytes [] ++ (nestedObjects stack ++ rest)) = .error .stackOverflow := by
        rw [readProperties, get_read, if_neg some, if_neg eof]
        refine (bind_read (read_utf8_bytes [] _ (by decide))).trans ?_
        exact bind_failed inductionHypothesis
      rw [nestedObjects, List.cons_append, List.append_assoc, readAny]
      refine (bind_read (discovery_nonzero RTMP_AMF0_Object _ .object rfl (by decide))).trans ?_
      refine (bind_read (read_marker_cons RTMP_AMF0_Object _)).trans ?_
      exact bind_failed properties

/-- A stack is deep enough for all streams of a length when it has room for more calls than a
third of it, and otherwise there is a stream of that length that overflows it. -/
theorem stack_suffices_iff (stack length : Nat) :
    (∀ bytes : List Byte, bytes.length = length →
      srsAmf0ReadAnyWithin stack bytes ≠ .error .stackOverflow) ↔ length < 3 * stack := by
  constructor
  · intro enough
    by_contra short
    have size : (nestedObjects stack ++ List.replicate (length - 3 * stack) (0 : Byte)).length = length := by
      rw [List.length_append, nested_objects_length, List.length_replicate]
      omega
    have noMark : ∀ back, List.replicate (length - 3 * stack) (0 : Byte) ≠ 9 :: back := by
      intro back same
      have nine : (9 : Byte) ∈ List.replicate (length - 3 * stack) (0 : Byte) := by
        rw [same]
        exact List.mem_cons_self
      exact absurd (List.eq_of_mem_replicate nine) (by decide)
    exact enough _ size (nested_objects_overflow _ stack _ noMark)
  · intro deep bytes size overflow
    obtain ⟨failure, known, failed⟩ | ⟨value, used, rest, read, -, -⟩ :=
      read_any_ends (bytes.length + 1) stack bytes.length (Nat.lt_succ_self _) (by omega) bytes (Nat.le_refl _)
    · have same := Except.error.inj (failed.symm.trans overflow)
      rw [same] at known
      rcases known with decode | invalid
      · cases decode
      · cases invalid
    · cases read.symm.trans overflow

/-! ### What is read can be written -/

/-- Erasing a name keeps the others in their order. -/
theorem names_erase_sublist (name : List Byte) (properties : Properties) :
    (properties.erase name).names.Sublist properties.names := by
  cases properties with
  | nil => exact List.Sublist.refl _
  | cons first value rest =>
      rw [Properties.erase]
      split
      case isTrue => exact List.sublist_cons_self _ _
      case isFalse => exact (names_erase_sublist name rest).cons_cons first

/-- Of distinct names none is left of the one that was erased. -/
theorem erased_absent (name : List Byte) (properties : Properties) (distinct : properties.names.Nodup) :
    name ∉ (properties.erase name).names := by
  cases properties with
  | nil => exact List.not_mem_nil
  | cons first value rest =>
      obtain ⟨apart, others⟩ := List.nodup_cons.mp distinct
      rw [Properties.erase]
      split
      case isTrue same => rwa [same]
      case isFalse other =>
        rw [Properties.names, List.mem_cons, not_or]
        exact ⟨other, erased_absent name rest others⟩

/-- Properties that can be written still can when one is erased. -/
theorem erase_storable (name : List Byte) (properties : Properties) (storable : properties.Storable) :
    (properties.erase name).Storable := by
  cases properties with
  | nil => exact storable
  | cons first value rest =>
      rw [Properties.erase]
      split
      case isTrue => exact storable.2.2
      case isFalse => exact ⟨storable.1, storable.2.1, erase_storable name rest storable.2.2⟩

/-- And when one that can be written is pushed back. -/
theorem push_back_storable (name : List Byte) (value : Any) (short : name.length < 2 ^ 15)
    (inside : value.Storable) (properties : Properties) (storable : properties.Storable) :
    (properties.pushBack name value).Storable := by
  cases properties with
  | nil => exact ⟨short, inside, trivial⟩
  | cons first property rest =>
      exact ⟨storable.1, storable.2.1, push_back_storable name value short inside rest storable.2.2⟩

/-- Elements that can be written still can when one more is pushed back. -/
theorem elements_push_back_storable (value : Any) (inside : value.Storable) (properties : Elements)
    (storable : properties.Storable) : (properties.pushBack value).Storable := by
  cases properties with
  | nil => exact ⟨inside, trivial⟩
  | cons first rest => exact ⟨storable.1, elements_push_back_storable value inside rest storable.2⟩

/-- An element that is pushed back is one more. -/
theorem elements_push_back_count (value : Any) (properties : Elements) :
    (properties.pushBack value).count = properties.count + 1 := by
  cases properties with
  | nil => rfl
  | cons first rest =>
      rw [Elements.pushBack, Elements.count, elements_push_back_count value rest, Elements.count]

/-- Erasing a property makes nothing deeper. -/
theorem erase_depth (name : List Byte) (properties : Properties) :
    (properties.erase name).depth ≤ properties.depth := by
  cases properties with
  | nil => exact Nat.le_refl _
  | cons first value rest =>
      rw [Properties.erase]
      split
      case isTrue => exact Nat.le_max_right _ _
      case isFalse =>
        rw [Properties.depth, Properties.depth]
        have others := erase_depth name rest
        omega

/-- Properties are as deep as the deepest of them. -/
theorem push_back_depth (name : List Byte) (value : Any) (properties : Properties) :
    (properties.pushBack name value).depth = max properties.depth value.depth := by
  cases properties with
  | nil => exact Nat.max_comm _ _
  | cons first property rest =>
      rw [Properties.pushBack, Properties.depth, push_back_depth name value rest, Properties.depth, Nat.max_assoc]

/-- Setting a property makes an object as deep as before or as the new value. -/
theorem set_depth (properties : Properties) (name : List Byte) (value : Any) :
    (properties.set name value).depth ≤ max properties.depth value.depth := by
  rw [Properties.set, push_back_depth]
  have others := erase_depth name properties
  omega

/-- Elements are as deep as the deepest of them. -/
theorem elements_push_back_depth (value : Any) (properties : Elements) :
    (properties.pushBack value).depth = max properties.depth value.depth := by
  cases properties with
  | nil => exact Nat.max_comm _ _
  | cons first rest =>
      rw [Elements.pushBack, Elements.depth, elements_push_back_depth value rest, Elements.depth, Nat.max_assoc]

/-- The names of an object stay distinct when one is set. -/
theorem set_distinct (properties : Properties) (name : List Byte) (value : Any)
    (distinct : properties.names.Nodup) : (properties.set name value).names.Nodup := by
  have others := distinct.sublist (names_erase_sublist name properties)
  rw [Properties.set, push_back_names, List.nodup_append]
  refine ⟨others, List.nodup_singleton name, ?_⟩
  intro first present second same
  rw [List.mem_singleton.mp same]
  rintro rfl
  exact erased_absent first properties distinct present

/-- A signed length of sixteen bits keeps texts short. -/
theorem read_utf8_short {bytes value rest : List Byte} (read : srsAmf0ReadUtf8 bytes = .ok (value, rest)) :
    value.length < 2 ^ 15 := by
  obtain ⟨len, left, _, text⟩ := bind_read_inv read
  split at text
  case isTrue =>
    cases text
    decide
  case isFalse positive =>
    obtain ⟨size, _⟩ := take_inv text
    rw [size]
    have value := BitVec.toInt_eq_toNat_cond len
    have bound := len.isLt
    split at value
    case isTrue half => omega
    case isFalse => omega

/-- Where the stream ends the loop over properties ends with it. -/
theorem read_properties_nil {readValue : Reading Any} {rounds : Nat} {before properties : Properties}
    {rest : List Byte} (read : readProperties readValue rounds before [] = .ok (properties, rest)) :
    rest = [] := by
  cases rounds with
  | zero => cases read
  | succ rounds =>
      rw [readProperties, get_read] at read
      cases read
      rfl

/-- Where the stream ends the loop over elements ends with it. -/
theorem read_elements_nil {readValue : Reading Any} {rounds left : Nat} {before properties : Elements}
    {rest : List Byte} (read : readElements readValue rounds left before [] = .ok (properties, rest)) :
    rest = [] := by
  cases rounds with
  | zero => cases read
  | succ rounds =>
      rw [readElements, get_read, if_pos (.inr rfl)] at read
      cases read
      rfl

/-- A reader whose values can be written when something is behind them, and are not nested
deeper than its stack. -/
def Yields (stack : Nat) (readValue : Reading Any) : Prop :=
  ∀ bytes value rest, readValue bytes = .ok (value, rest) → rest ≠ [] → value.Storable ∧ value.depth ≤ stack

/-- The properties that are read can be written again, and are not nested deeper either. -/
theorem read_properties_storable {stack : Nat} {readValue : Reading Any} (yields : Yields stack readValue)
    (rounds : Nat) (before : Properties) {properties : Properties} {bytes rest : List Byte}
    (distinct : before.names.Nodup) (storable : before.Storable) (shallow : before.depth ≤ stack)
    (read : readProperties readValue rounds before bytes = .ok (properties, rest)) (behind : rest ≠ []) :
    (properties.names.Nodup ∧ properties.Storable) ∧ properties.depth ≤ stack := by
  induction rounds generalizing before bytes with
  | zero => cases read
  | succ rounds inductionHypothesis =>
      rw [readProperties, get_read] at read
      split at read
      case isTrue empty =>
        cases read
        exact absurd (List.isEmpty_iff.mp empty) behind
      case isFalse =>
        split at read
        case isTrue =>
          obtain ⟨_, left, _, done⟩ := bind_read_inv read
          cases done
          exact ⟨⟨distinct, storable⟩, shallow⟩
        case isFalse =>
          obtain ⟨name, afterName, nameRead, more⟩ := bind_read_inv read
          obtain ⟨value, afterValue, valueRead, others⟩ := bind_read_inv more
          have some : afterValue ≠ [] := by
            rintro rfl
            exact behind (read_properties_nil others)
          obtain ⟨inside, levels⟩ := yields afterName value afterValue valueRead some
          exact inductionHypothesis _ (set_distinct before name value distinct)
            (push_back_storable name value (read_utf8_short nameRead) inside _
              (erase_storable name before storable))
            (Nat.le_trans (set_depth before name value) (Nat.max_le.mpr ⟨shallow, levels⟩)) others

/-- The elements that are read can be written again, are as many as were to come, and are
not nested deeper either. -/
theorem read_elements_storable {stack : Nat} {readValue : Reading Any} (yields : Yields stack readValue)
    (rounds left : Nat) (before : Elements) {properties : Elements} {bytes rest : List Byte}
    (storable : before.Storable) (shallow : before.depth ≤ stack)
    (read : readElements readValue rounds left before bytes = .ok (properties, rest)) (behind : rest ≠ []) :
    (properties.count = before.count + left ∧ properties.Storable) ∧ properties.depth ≤ stack := by
  induction rounds generalizing left before bytes with
  | zero => cases read
  | succ rounds inductionHypothesis =>
      rw [readElements, get_read] at read
      split at read
      case isTrue stop =>
        cases read
        obtain none | empty := stop
        · exact ⟨⟨by omega, storable⟩, shallow⟩
        · exact absurd (List.isEmpty_iff.mp empty) behind
      case isFalse more =>
        rw [not_or] at more
        obtain ⟨value, afterValue, valueRead, others⟩ := bind_read_inv read
        have some : afterValue ≠ [] := by
          rintro rfl
          exact behind (read_elements_nil others)
        obtain ⟨inside, levels⟩ := yields bytes value afterValue valueRead some
        obtain ⟨grown, deepest⟩ := inductionHypothesis (left - 1) _
          (elements_push_back_storable value inside before storable)
          (by rw [elements_push_back_depth]; exact Nat.max_le.mpr ⟨shallow, levels⟩) others
        rw [elements_push_back_count] at grown
        exact ⟨⟨by omega, grown.2⟩, deepest⟩

/-- The kind comes from the marker in front, unless the end mark is there. -/
theorem discovery_inv {bytes rest : List Byte} {kind : Kind} (found : discovery bytes = .ok (kind, rest)) :
    rest = bytes ∧ (kind = .objectEof ∨ srsAmf0IsObjectEof bytes = false) := by
  unfold discovery at found
  split at found
  case isTrue =>
    cases found
    exact ⟨rfl, .inl rfl⟩
  case isFalse noMark =>
    rw [Bool.not_eq_true] at noMark
    split at found
    · cases found
    · split at found
      · cases found
      · cases found
        exact ⟨rfl, .inr noMark⟩

/-- A number that is not taken for an end mark differs from it in its highest bits. -/
theorem read_number_high {bytes rest : List Byte} {value : BitVec 64}
    (noMark : srsAmf0IsObjectEof bytes = false) (read : srsAmf0ReadNumber bytes = .ok (value, rest)) :
    value.toNat / 2 ^ 48 ≠ 0x0009 := by
  obtain ⟨_, afterMarker, marker, number⟩ := bind_read_inv read
  obtain ⟨taken, left, bytesTaken, converted⟩ := bind_read_inv number
  cases converted
  obtain ⟨size, rfl⟩ := take_inv bytesTaken
  intro high
  rw [← Bool.not_eq_true, is_object_eof_iff] at noMark
  apply noMark
  rw [read_marker_inv marker]
  match taken, size with
  | first :: second :: behind, size =>
      have others : behind.length = 6 := by simpa using size
      have low := number_bound behind
      have bound : numberOf (first :: second :: behind) < 2 ^ 64 :=
        lt_of_lt_of_eq (number_bound _) (by rw [size]; rfl)
      rw [others] at low
      rw [BitVec.toNat_ofNat, Nat.mod_eq_of_lt bound] at high
      simp only [numberOf, List.length_cons, others] at high
      refine ⟨behind ++ rest, ?_⟩
      rw [show first = 0 from BitVec.eq_of_toNat_eq (by simp; omega),
        show second = 9 from BitVec.eq_of_toNat_eq (by simp; omega)]
      rfl

/-- What is read before the stream ends can be written, and is not nested deeper than the
stack. -/
theorem read_any_storable (rounds stack : Nat) : Yields stack (readAny rounds stack) := by
  induction stack with
  | zero =>
      intro bytes value rest read
      cases read
  | succ stack inductionHypothesis =>
      intro bytes value rest read behind
      rw [readAny] at read
      obtain ⟨kind, left, found, body⟩ := bind_read_inv read
      obtain ⟨rfl, mark⟩ := discovery_inv found
      cases kind with
      | string =>
          obtain ⟨text, _, textRead, done⟩ := bind_read_inv body
          cases done
          obtain ⟨_, _, _, utf8⟩ := bind_read_inv textRead
          exact ⟨read_utf8_short utf8, Nat.le_add_left 1 stack⟩
      | boolean =>
          obtain ⟨_, _, _, done⟩ := bind_read_inv body
          cases done
          exact ⟨trivial, Nat.le_add_left 1 stack⟩
      | number =>
          obtain ⟨number, _, numberRead, done⟩ := bind_read_inv body
          cases done
          exact ⟨read_number_high (mark.resolve_left (by decide)) numberRead, Nat.le_add_left 1 stack⟩
      | null =>
          obtain ⟨_, _, _, done⟩ := bind_read_inv body
          cases done
          exact ⟨trivial, Nat.le_add_left 1 stack⟩
      | undefined =>
          obtain ⟨_, _, _, done⟩ := bind_read_inv body
          cases done
          exact ⟨trivial, Nat.le_add_left 1 stack⟩
      | objectEof =>
          obtain ⟨_, _, _, done⟩ := bind_read_inv body
          cases done
          exact ⟨trivial, Nat.le_add_left 1 stack⟩
      | object =>
          obtain ⟨_, _, _, inside⟩ := bind_read_inv body
          obtain ⟨properties, _, propertiesRead, done⟩ := bind_read_inv inside
          cases done
          obtain ⟨storable, levels⟩ := read_properties_storable inductionHypothesis rounds .nil List.nodup_nil
            trivial (Nat.zero_le _) propertiesRead behind
          exact ⟨storable, Nat.succ_le_succ levels⟩
      | ecmaArray =>
          obtain ⟨_, _, _, counted⟩ := bind_read_inv body
          obtain ⟨_, _, _, inside⟩ := bind_read_inv counted
          obtain ⟨properties, _, propertiesRead, done⟩ := bind_read_inv inside
          cases done
          obtain ⟨storable, levels⟩ := read_properties_storable inductionHypothesis rounds .nil List.nodup_nil
            trivial (Nat.zero_le _) propertiesRead behind
          exact ⟨storable, Nat.succ_le_succ levels⟩
      | strictArray =>
          obtain ⟨_, _, _, counted⟩ := bind_read_inv body
          obtain ⟨count, _, _, inside⟩ := bind_read_inv counted
          obtain ⟨properties, _, propertiesRead, done⟩ := bind_read_inv inside
          cases done
          obtain ⟨⟨number, storable⟩, levels⟩ := read_elements_storable inductionHypothesis rounds
            count.toInt.toNat .nil trivial (Nat.zero_le _) propertiesRead behind
          exact ⟨⟨by rw [number]; exact (Nat.zero_add _).symm, storable⟩, Nat.succ_le_succ levels⟩
      | date =>
          obtain ⟨_, _, _, dated⟩ := bind_read_inv body
          obtain ⟨_, _, _, zoned⟩ := bind_read_inv dated
          obtain ⟨_, _, _, done⟩ := bind_read_inv zoned
          cases done
          exact ⟨trivial, Nat.le_add_left 1 stack⟩

/-- Reading a stream on a stack with room for more calls than a third of its bytes ends with
an error of reading or with a value and some bytes less. A value with more of the stream
behind it is the same again after it was written and read, on the same stack. -/
theorem accepted_value_kept (stack : Nat) (bytes : List Byte) (deep : bytes.length < 3 * stack) :
    (∃ failure, Unreadable failure ∧ srsAmf0ReadAnyWithin stack bytes = .error failure) ∨
      ∃ value used rest, srsAmf0ReadAnyWithin stack bytes = .ok (value, rest) ∧ bytes = used ++ rest ∧
        1 ≤ used.length ∧ (rest ≠ [] → ∃ again, Writes .ERROR_RTMP_AMF0_ENCODE again value.write ∧
          ∀ behind, srsAmf0ReadAnyWithin stack (again ++ behind) = .ok (value, behind)) := by
  obtain failed | ⟨value, used, rest, read, parts, some⟩ :=
    read_any_ends (bytes.length + 1) stack bytes.length (Nat.lt_succ_self _) deep bytes (Nat.le_refl _)
  · exact .inl failed
  refine .inr ⟨value, used, rest, read, parts, some, ?_⟩
  intro behind
  obtain ⟨storable, levels⟩ := read_any_storable _ stack bytes value rest read behind
  refine ⟨value.bytes, any_writes value, ?_⟩
  intro back
  exact read_any_bytes value storable _ stack back (Nat.lt_succ_self _) levels

/-- Two objects, one inside the other, are read with two calls inside one another, and kept. -/
theorem accepted_value_kept_nested : ∃ again,
    Writes .ERROR_RTMP_AMF0_ENCODE again (Any.object (.cons [97] (.object .nil) .nil)).write ∧
      ∀ behind, srsAmf0ReadAnyWithin 5 (again ++ behind) = .ok (.object (.cons [97] (.object .nil) .nil), behind) := by
  have read : srsAmf0ReadAnyWithin 5 [0x03, 0, 1, 97, 0x03, 0, 0, 9, 0, 0, 9, 7] =
      .ok (.object (.cons [97] (.object .nil) .nil), [7]) :=
    read_any_bytes (.object (.cons [97] (.object .nil) .nil))
      (by simp [Any.Storable, Properties.Storable, Properties.names]) 13 5 [7] (by decide) (by decide)
  obtain ⟨failure, -, failed⟩ | ⟨value, used, rest, other, -, -, kept⟩ :=
    accepted_value_kept 5 [0x03, 0, 1, 97, 0x03, 0, 0, 9, 0, 0, 9, 7] (by decide)
  · rw [read] at failed
    cases failed
  · rw [read] at other
    cases other
    exact kept (List.cons_ne_nil 7 [])

end IotCamera.Rtmp.Amf0
