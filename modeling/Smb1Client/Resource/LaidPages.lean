import Smb1Client.Resource.Listing
import Smb1Client.Wire.DirectoryPages

/-!
The pages of a listing as a server lays them out: what a reply says of its page, and the
entries of it, in bytes.
-/

namespace Smb1Client

open LittleEndian

namespace FindReply

/-- The parameter block of a page's reply. -/
def write (found : FindReply) : Bytes :=
  (found.sid.map u16le).getD [] ++ (u16le found.searchCount ++ (u16le found.endOfSearch ++
    (u16le found.eaErrorOffset ++ u16le found.lastNameOffset)))

variable {found : FindReply}

theorem readNext_write (found : FindReply) :
    readNext (u16le found.searchCount ++ (u16le found.endOfSearch ++
      (u16le found.eaErrorOffset ++ u16le found.lastNameOffset))) =
        some ({ found with sid := none }, []) := by
  rw [← List.append_nil (u16le found.lastNameOffset), readNext, Reader.u16_bind, Reader.u16_bind,
    Reader.u16_bind, Reader.u16_bind, Reader.pure_apply]

theorem decodeNext_write (unnamed : found.sid = none) : decodeNext found.write = .ok found := by
  have read := readNext_write found
  rw [decodeNext, readWords, write, unnamed, Option.map_none, Option.getD_none, List.nil_append,
    read, ← unnamed]

theorem decodeFirst_write {sid : UInt16} (named : found.sid = some sid) :
    decodeFirst found.write = .ok found := by
  have read := readNext_write found
  rw [decodeFirst, readWords, write, named, Option.map_some, Option.getD_some, readFirst,
    Reader.u16_bind, Reader.bind_apply, read, ← named]
  rfl

end FindReply

/-- The reply carries these entries, and says this of the page. -/
structure Reply.Carries (reply : Reply) (first : Bool) (found : FindReply)
    (laid : List LaidEntry) : Prop where
  success : reply.status = .SUCCESS
  body : ∃ setup toEnd, reply.transaction = some ⟨setup, found.write, layout toEnd laid⟩
  search : found.sid.isSome = first
  counted : found.searchCount.toNat = laid.length

namespace Reply.Carries

variable {reply : Reply} {first : Bool} {found : FindReply} {laid : List LaidEntry}

/-- **A page is read as it is laid out.** -/
theorem read (carries : reply.Carries first found laid) :
    ∃ data, ReadDir.decodePage first reply = .ok (found, data) ∧
      walkEntries data found.searchCount = .ok (laid.map (·.entry)) := by
  obtain ⟨setup, toEnd, body⟩ := carries.body
  refine ⟨layout toEnd laid, ?_, ?_⟩
  · have decoded : (if first then FindReply.decodeFirst else FindReply.decodeNext) found.write =
        .ok found := by
      have search := carries.search
      cases named : found.sid with
      | none =>
          rw [named] at search
          rw [← search]
          exact FindReply.decodeNext_write named
      | some sid =>
          rw [named] at search
          rw [← search]
          exact FindReply.decodeFirst_write named
    rw [ReadDir.decodePage, body]
    dsimp only
    rw [decoded]
    rfl
  · have few : laid.length ≤ 65535 := by
      rw [← carries.counted]
      exact Nat.le_of_lt_succ found.searchCount.toNat_lt
    have walked := walkEntries_layout toEnd few
    rwa [← carries.counted, UInt16.ofNat_toNat] at walked

end Reply.Carries

theorem shortNamed_plain {e : DirectoryEntry} (unshort : e.shortName = []) :
    fromUtf16 "ShortName" 0 ((List.replicate 24 0).take (min (0 : UInt8).toNat 24)) =
      .ok e.shortName := by
  rw [unshort]
  rfl

/-- An entry without a short name, in as many bytes as it takes. -/
def LaidEntry.plain (e : DirectoryEntry) (unshort : e.shortName = [])
    (fits : MIN_ENTRY_LEN + (utf16Bytes e.fileName).length < 2 ^ 32) : LaidEntry where
  entry := e
  shortNameLength := 0
  reserved := 0
  shortName := .replicate 24 0
  padding := []
  shortWhole := List.length_replicate
  shortNamed := shortNamed_plain unshort
  fits := fits

end Smb1Client
