import ReUperf.Lib.Records

/-!
# Records of inotify

The layout of the records that the two users of inotify read, the process monitor and the watcher of
the configuration file, and what they read of a record the kernel makes.
-/

namespace ReUperf

namespace Inotify

/-- `IN_CREATE`. -/
def inCreate : Nat := 0x100

/-- `IN_DELETE`. -/
def inDelete : Nat := 0x200

/-- `IN_MODIFY`. -/
def inModify : Nat := 0x2

/-- `IN_ATTRIB`. -/
def inAttrib : Nat := 0x4

/-- `IN_CLOSE_WRITE`. -/
def inCloseWrite : Nat := 0x8

/-- `IN_MOVED_TO`. -/
def inMovedTo : Nat := 0x80

/-- `IN_DELETE_SELF`. -/
def inDeleteSelf : Nat := 0x400

/-- `IN_MOVE_SELF`. -/
def inMoveSelf : Nat := 0x800

/-- `IN_IGNORED`. -/
def inIgnored : Nat := 0x8000

/-- `IN_Q_OVERFLOW`. -/
def inQOverflow : Nat := 0x4000

/-- Whether a mask has one of some flags. -/
def hasFlag (mask flags : Nat) : Bool := decide (mask &&& flags ≠ 0)

/-- The layout of `inotify_event`: the watch, the mask, the cookie, the length of the name and the
name. -/
def framing : Framing where
  headerSize := 16
  positive := by decide
  payloadSize header := Bytes.ofLittleEndian ((header.drop 12).take 4)

/-- The mask of a record. -/
def mask (record : Bytes) : Nat := Bytes.ofLittleEndian ((record.drop 4).take 4)

/-- The length of the name, with what pads it. -/
def len (record : Bytes) : Nat := Bytes.ofLittleEndian ((record.drop 12).take 4)

/-- The name, which a zero ends. -/
def name (record : Bytes) : Bytes := (record.drop 16).takeWhile (· ≠ 0)

end Inotify

/-! ## Records of the kernel -/

/-- A record as the kernel makes it. -/
structure InotifyEvent where
  /-- The watch. -/
  wd : Nat
  /-- The mask. -/
  mask : Nat
  /-- The cookie. -/
  cookie : Nat
  /-- The name; empty when the record has none. -/
  name : Bytes
  /-- The zeros after the name. -/
  padding : Nat
  /-- The mask fits its field. -/
  maskFits : mask < 256 ^ 4
  /-- So does the length of the name. -/
  nameFits : name.length + padding < 256 ^ 4
  /-- A name has no zero. -/
  clean : 0 ∉ name

namespace InotifyEvent

/-- The bytes of a record. -/
def encode (event : InotifyEvent) : Bytes :=
  Bytes.littleEndian 4 event.wd ++ Bytes.littleEndian 4 event.mask ++
    Bytes.littleEndian 4 event.cookie ++
    Bytes.littleEndian 4 (event.name.length + event.padding) ++
    (event.name ++ List.replicate event.padding 0)

variable (event : InotifyEvent)

/-- The length of a record. -/
theorem length_encode : event.encode.length = 16 + (event.name.length + event.padding) := by
  simp only [encode, List.length_append, Bytes.length_littleEndian, List.length_replicate]

/-- The mask is read back. -/
@[simp] theorem mask_encode : Inotify.mask event.encode = event.mask := by
  have drop : event.encode.drop 4 = Bytes.littleEndian 4 event.mask ++
      (Bytes.littleEndian 4 event.cookie ++
        (Bytes.littleEndian 4 (event.name.length + event.padding) ++
          (event.name ++ List.replicate event.padding 0))) := by
    rw [encode]
    simp only [List.append_assoc]
    exact List.drop_left' (Bytes.length_littleEndian 4 _)
  rw [Inotify.mask, drop, List.take_left' (Bytes.length_littleEndian 4 _)]
  exact Bytes.ofLittleEndian_littleEndian event.maskFits

/-- A record from its length on. -/
theorem drop_encode : event.encode.drop 12 =
    Bytes.littleEndian 4 (event.name.length + event.padding) ++
      (event.name ++ List.replicate event.padding 0) := by
  rw [encode, List.append_assoc]
  refine List.drop_left' ?_
  simp only [List.length_append, Bytes.length_littleEndian]

/-- The length of the name is read back. -/
@[simp] theorem len_encode : Inotify.len event.encode = event.name.length + event.padding := by
  rw [Inotify.len, drop_encode, List.take_left' (Bytes.length_littleEndian 4 _)]
  exact Bytes.ofLittleEndian_littleEndian event.nameFits

/-- The name is read back without its padding. -/
@[simp] theorem name_encode : Inotify.name event.encode = event.name := by
  have drop : event.encode.drop 16 = event.name ++ List.replicate event.padding 0 := by
    rw [show 16 = 12 + 4 from rfl, ← List.drop_drop, drop_encode]
    exact List.drop_left' (Bytes.length_littleEndian 4 _)
  have all : ∀ byte ∈ event.name, decide (byte ≠ 0) = true := by
    intro byte member
    rw [decide_eq_true_eq]
    intro zero
    rw [zero] at member
    exact event.clean member
  rw [Inotify.name, drop, List.takeWhile_append_of_pos all, List.takeWhile_replicate]
  simp

/-- A record of the kernel is one of the layout. -/
theorem isRecord_encode : Inotify.framing.IsRecord event.encode := by
  have length := event.length_encode
  have header : 16 ≤ event.encode.length := by omega
  constructor
  · exact header
  · have field : ((event.encode.take 16).drop 12).take 4 = (event.encode.drop 12).take 4 := by
      rw [List.drop_take, List.take_take, Nat.min_self]
    have size : Inotify.framing.payloadSize (event.encode.take 16) =
        event.name.length + event.padding :=
      (congrArg Bytes.ofLittleEndian field).trans event.len_encode
    have whole : Inotify.framing.recordSize event.encode =
        16 + Inotify.framing.payloadSize (event.encode.take 16) := rfl
    rw [whole, size, length]

end InotifyEvent

end ReUperf
