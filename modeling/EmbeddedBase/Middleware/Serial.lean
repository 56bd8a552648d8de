import EmbeddedBase.NerEnvironment.Serial2

/-!
# Serial lines from the firmware to the host

The model of `serial_monitor` and `serial_graph` in `serial.c`, and what becomes of their lines
in `serial2.py`.  The parts of a line are separated by slashes and counted, so a data text with
a slash is dropped; an empty title cannot be asked for; and bytes that are no UTF-8 are ignored.
-/

namespace EmbeddedBase.Middleware.Serial

open EmbeddedBase.Data
open EmbeddedBase.NerEnvironment

/-! ## The firmware -/

/-- A title or a label: a C string without slashes and line feeds. -/
structure Name (bytes : List UInt8) : Prop where
  noSlash : '/'.toUInt8 ∉ bytes
  noFeed : '\n'.toUInt8 ∉ bytes

/-- A data text: without line feeds, and without white space at its ends. -/
structure DataText (bytes : List UInt8) : Prop where
  noFeed : '\n'.toUInt8 ∉ bytes
  stripped : strip (decode bytes) = decode bytes

section Host

variable (toDecimal : Char → Option (Fin 10)) (args : Args) (before : List UInt8)

end Host

/-! ## Texts and their bytes -/

theorem Name.feed {text : Text} (name : Name (encode text)) : '\n' ∉ text := by
  intro member
  exact name.noFeed ((toUInt8_mem_encode_iff (by decide)).mpr member)

theorem DataText.feed {text : Text} (data : DataText (encode text)) : '\n' ∉ text := by
  intro member
  exact data.noFeed ((toUInt8_mem_encode_iff (by decide)).mpr member)

theorem DataText.strip {text : Text} (data : DataText (encode text)) : strip text = text := by
  have stripped := data.stripped
  rwa [decode_encode] at stripped

/-! ## One line on the stream -/

/-- A line that starts with a letter of its tag and ends in a data text. -/
structure Whole (line : Text) : Prop where
  nonempty : line ≠ []
  noFeed : '\n' ∉ line
  first : ∀ char ∈ line.head?, isSpace char = false
  last : ∀ char ∈ line.getLast?, isSpace char = false

section Lines

variable {toDecimal : Char → Option (Fin 10)} {args : Args}

/-- A line is stripped no further by the functions of the windows. -/
theorem Whole.strip {line : Text} (whole : Whole line) : strip line = line :=
  trim_eq_self whole.first whole.last

end Lines

end EmbeddedBase.Middleware.Serial
