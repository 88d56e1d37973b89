import FieldCamera.Device.Record
import FieldCamera.Proofs.Json.Objects
/-!
# Reading back a device record

Every record comes back from its text as it was, with all texts and all numbers
(`Record.read_text`): each section is read member by member, and takes over just what it holds. So
does every configuration (`Device.ofRecord_recordText`).
-/

namespace FieldCamera

open Json

namespace Record

theorem reads_text (level : Nat) (s : String) :
    Reads string (Utf8.encode (prettyAt level (.text s))) s :=
  reads_string (isQuoted_quote s)

theorem reads_integer (level : Nat) (n : Int32) :
    Reads int32 (Utf8.encode (prettyAt level (.integer n.toInt))) n :=
  reads_int32 n

/-- The whole of a section is written, so that nothing is left of what it is read into. -/
theorem reads_network (level : Nat) (n₀ n : Network) :
    Reads (structured Network.members n₀) (Utf8.encode (prettyAt level n.toJson)) n :=
  reads_pretty (List.cons_ne_nil _ _) <|
    .pretty rfl (by decide) (reads_member (reads_text _ _) _ _ _) <|
    .pretty rfl (by decide) (reads_member (reads_text _ _) _ _ _) <|
    .pretty rfl (by decide) (reads_member (reads_text _ _) _ _ _) <|
    .pretty rfl (by decide) (reads_member (reads_text _ _) _ _ _) <|
    .pretty rfl (by decide) (reads_member (reads_text _ _) _ _ _) .done

theorem reads_camera (level : Nat) (c₀ c : Camera) :
    Reads (structured Camera.members c₀) (Utf8.encode (prettyAt level c.toJson)) c :=
  reads_pretty (List.cons_ne_nil _ _) <|
    .pretty rfl (by decide) (reads_member (reads_integer _ _) _ _ _) <|
    .pretty rfl (by decide) (reads_member (reads_text _ _) _ _ _) <|
    .pretty rfl (by decide) (reads_member (reads_integer _ _) _ _ _) <|
    .pretty rfl (by decide) (reads_member (reads_integer _ _) _ _ _) <|
    .pretty rfl (by decide) (reads_member (reads_integer _ _) _ _ _) .done

/-- A record is read back from its text. -/
theorem read_text (r : Record) : read (Utf8.encode r.text) = .ok r := by
  have hsections : Reads (structured members {}) (Utf8.encode (prettyAt 0 r.toJson)) r :=
    reads_pretty (List.cons_ne_nil _ _) <|
      .pretty rfl (by decide) (reads_member (reads_network 1 _ r.network) _ _ _) <|
      .pretty rfl (by decide) (reads_member (reads_camera 1 _ r.camera) _ _ _) .done
  exact whole_of_reads hsections

end Record

/-- A configuration is read back from its record. -/
theorem Device.ofRecord_recordText (d : Device) : ofRecord (Utf8.encode d.recordText) = .ok d := by
  rw [ofRecord, recordText, Record.read_text, Except.map, toDevice_toRecord]

end FieldCamera
