import FieldCamera.Proofs.Number.Leading
import FieldCamera.Proofs.Request.Grammar
import FieldCamera.Proofs.Text.Lines
import FieldCamera.Upload.Envelope
/-!
# Requests that follow each other on one stream

What an upload sends is a request that a receiver can read: its head is lines that keep their form,
and the declared length of the body is the true one (`feed_wire_tells`). So a server that gives the
bytes of many uploads to one new receiver after another gets back just these uploads, whatever bytes
their images hold (`requestsOf_wires`).
-/

namespace FieldCamera

namespace Request

open Receiver

/-- A line that keeps the bounds is not refused. -/
theorem firstBreach?_eq_none {limits : Limits} {inHeaders : Bool} {used : Nat}
    {line : List UInt8} (hline : line.length ≤ limits.line)
    (hheaders : inHeaders = true → used + line.length ≤ limits.headers) :
    firstBreach? limits inHeaders used [line] = none := by
  rw [firstBreach?, List.findSome?_eq_none_iff]
  rintro ⟨column, total⟩ hmem
  simp only [extents, List.flatMap_cons, List.flatMap_nil, List.append_nil] at hmem
  have hcolumn := List.mem_range'_1.1 (List.fst_mem_of_mem_zipIdx hmem)
  have htotal := List.snd_lt_of_mem_zipIdx hmem
  rw [List.length_range'] at htotal
  simp only at hcolumn htotal
  rw [breach?, if_neg (by simp only; omega), if_neg]
  rintro ⟨hin, hlarge⟩
  have := hheaders hin
  simp only at hlarge
  omega

/-- A text as a line on a stream. -/
def lineBytes (s : String) : List UInt8 :=
  Utf8.encode s ++ ['\r'.toUInt8, '\n'.toUInt8]

/-- A line in the bounds that ends is taken whole, and its end decides what becomes of the
receiver. -/
theorem feed_lineBytes {limits : Limits} (head : Option (FirstLine × Nat)) (used : Nat)
    {s : String} {r' : Receiver} (hs : Text.OneLine s)
    (hline : (Utf8.encode s).length ≤ limits.line)
    (hheaders : head.isSome = true → used + (Utf8.encode s).length ≤ limits.headers)
    (hend : receive limits (inLine head (Utf8.encode s) (used + (Utf8.encode s).length))
      '\n'.toUInt8 = (r', none)) :
    feed limits (inLine head [] used) (lineBytes s) = ⟨r', (lineBytes s).length, none⟩ := by
  have hkept : lineOf (Utf8.encode s ++ ['\r'.toUInt8]) = Utf8.encode s := by
    have hall : ∀ b ∈ Utf8.encode s, (b != '\r'.toUInt8) = true := by
      intro b hb
      rw [bne_iff_ne]
      rintro rfl
      exact hs.return_notMem hb
    rw [lineOf, List.filter_append, List.filter_eq_self.2 hall]
    simp
  have hfeed : '\n'.toUInt8 ∉ Utf8.encode s ++ ['\r'.toUInt8] := by
    rw [List.mem_append, not_or]
    exact ⟨hs.feed_notMem, by decide⟩
  have hbytes : lineBytes s = (Utf8.encode s ++ ['\r'.toUInt8]) ++ ['\n'.toUInt8] := by
    simp [lineBytes]
  rw [hbytes]
  apply feed_ended_line hfeed
  · rw [hkept]
    exact firstBreach?_eq_none hline hheaders
  · rw [hkept]
    exact hend

/-- A request, and the number of bytes that it took. -/
structure Taken where
  request : Request
  length : Nat
  deriving DecidableEq, Repr

/-- What a new receiver makes of bytes that begin with a whole request. -/
def takeOne (limits : Limits) (bs : List UInt8) : Option Taken :=
  let fed := feed limits start bs
  match fed.verdict with
  | some (.ok request) => some ⟨request, fed.consumed⟩
  | _ => none

/-- A request takes a byte at least. -/
theorem length_takeOne {limits : Limits} {bs : List UInt8} {t : Taken}
    (h : takeOne limits bs = some t) : 0 < t.length ∧ 0 < bs.length := by
  cases bs with
  | nil => contradiction
  | cons b bs =>
      refine ⟨?_, Nat.succ_pos _⟩
      simp only [takeOne] at h
      split at h
      · obtain rfl := Option.some.inj h
        have hopen : ¬start.isComplete = true := by decide
        rw [feed, if_neg hopen]
        split
        · exact Nat.one_pos
        · exact Nat.succ_pos _
      · contradiction

/-- The requests that a stream begins with, each read by a new receiver from where the one before
has ended, and the bytes behind the last of them. -/
def requestsOf (limits : Limits) (bs : List UInt8) : List Taken × List UInt8 :=
  match _h : takeOne limits bs with
  | none => ([], bs)
  | some t =>
    let (more, rest) := requestsOf limits (bs.drop t.length)
    (t :: more, rest)
termination_by bs.length
decreasing_by
  have := length_takeOne _h
  rw [List.length_drop]
  omega

theorem requestsOf_of_none {limits : Limits} {bs : List UInt8} (h : takeOne limits bs = none) :
    requestsOf limits bs = ([], bs) := by
  rw [requestsOf]
  split <;> simp_all

theorem requestsOf_of_some {limits : Limits} {bs : List UInt8} {t : Taken}
    (h : takeOne limits bs = some t) :
    requestsOf limits bs =
      (t :: (requestsOf limits (bs.drop t.length)).1,
        (requestsOf limits (bs.drop t.length)).2) := by
  rw [requestsOf]
  split <;> simp_all

theorem takeOne_of_tells {limits : Limits} {request : Request} {bs rest : List UInt8}
    (h : (Reading.complete request rest).Tells (bs ++ rest) (feed limits start (bs ++ rest))) :
    takeOne limits (bs ++ rest) = some ⟨request, bs.length⟩ := by
  obtain ⟨hfault, hfinish, taken, htaken, hconsumed⟩ := h
  obtain rfl := List.append_cancel_right htaken
  have hcomplete : (feed limits start (bs ++ rest)).receiver.isComplete = true := by
    cases hr : (feed limits start (bs ++ rest)).receiver <;>
      simp [hr, finish, isComplete, phase] at hfinish ⊢
  have hverdict : (feed limits start (bs ++ rest)).verdict = some (.ok request) := by
    rw [Fed.verdict, hfault, if_pos hcomplete, hfinish]
  simp only [takeOne, hverdict, hconsumed]

theorem lineText_encode (s : String) : lineText (Utf8.encode s) = s.toList := by
  rw [lineText, Utf8.decodeLossy_encode]

/-- Header lines in the bounds are taken one after another. -/
theorem feed_headerLines {limits : Limits} (first : FirstLine) (fields : List String)
    (used declared : Nat) (hone : ∀ s ∈ fields, Text.OneLine s)
    (hne : ∀ s ∈ fields, s ≠ "")
    (hline : ∀ s ∈ fields, (Utf8.encode s).length ≤ limits.line)
    (hheaders : used + (fields.flatMap Utf8.encode).length ≤ limits.headers) :
    feed limits (inLine (some (first, declared)) [] used) (fields.flatMap lineBytes) =
      ⟨inLine (some (first, declaredBy (fields.map Utf8.encode) declared)) []
          (used + (fields.flatMap Utf8.encode).length),
        (fields.flatMap lineBytes).length, none⟩ := by
  induction fields generalizing used declared with
  | nil => rfl
  | cons s fields ih =>
      rw [List.forall_mem_cons] at hone hne hline
      rw [List.flatMap_cons, List.length_append, ← Nat.add_assoc] at hheaders
      have hkept : Utf8.encode s ≠ [] := fun h => hne.1 (Utf8.encode_eq_nil_iff.1 h)
      have hfirst := feed_lineBytes (some (first, declared)) used hone.1 hline.1
        (fun _ => by omega) (receive_headerLine_end hkept first declared _)
      have hrest := ih (used + (Utf8.encode s).length)
        ((lengthOf? (Utf8.encode s)).getD declared) hone.2 hne.2 hline.2 hheaders
      rw [List.flatMap_cons, feed_append_of_fault_none (by rw [hfirst]), hfirst, hrest,
        Fed.andThen, List.map_cons, declaredBy_cons, List.flatMap_cons, List.length_append,
        ← Nat.add_assoc, List.length_append]

end Request

namespace Upload

open Request Request.Receiver

/-- The first line of a request. -/
def requestLine (target : Address) : String :=
  "POST " ++ target.path ++ " HTTP/1.1"

namespace Envelope

/-- The header lines of a request. -/
def headerFields (e : Envelope) (target : Address) : List String :=
  ["Host: " ++ target.host, "Connection: keep-alive", "Content-Type: " ++ e.contentType,
    "Content-Length: " ++ toString e.contentLength]

/-- The head of a request is its lines and an empty one. -/
theorem encode_requestHead (e : Envelope) (target : Address) :
    Utf8.encode (e.requestHead target) =
      lineBytes (requestLine target) ++ ((e.headerFields target).flatMap lineBytes ++
        ['\r'.toUInt8, '\n'.toUInt8]) := by
  have hend : Utf8.encode lineEnd = ['\r'.toUInt8, '\n'.toUInt8] := by rfl
  unfold requestHead headerFields requestLine lineBytes
  simp only [Utf8.encode_append, hend, List.flatMap_cons, List.flatMap_nil, List.append_assoc,
    List.append_nil]

/-- No text in the head of a request ends its line, and the path is one token. -/
structure Plain (e : Envelope) (target : Address) : Prop where
  path : Text.OneLine target.path
  token : ' ' ∉ target.path.toList
  host : Text.OneLine target.host
  boundary : Text.OneLine e.boundary

/-- Limits that are large enough for a request. -/
structure Fits (e : Envelope) (target : Address) (limits : Limits) : Prop where
  lines : ∀ s ∈ requestLine target :: e.headerFields target, (Utf8.encode s).length ≤ limits.line
  headers : ((e.headerFields target).flatMap Utf8.encode).length ≤ limits.headers
  body : e.contentLength ≤ limits.body
  /-- Greater numbers are not read; no memory holds as many bytes. -/
  countable : e.contentLength ≤ Number.greatest

/-- The request that its bytes are read as. -/
def asRequest (e : Envelope) (target : Address) : Request where
  method := .post
  target := target.path
  body := Utf8.decodeLossy (e.head ++ e.image ++ e.tail)
  contentLength := e.contentLength

theorem ofText_requestLine {target : Address} (h : ' ' ∉ target.path.toList) :
    FirstLine.spelled (lineText (Utf8.encode (requestLine target))) = ⟨.post, target.path⟩ := by
  have hmethod : Text.cut ' ' (requestLine target).toList =
      some ("POST".toList, target.path.toList ++ " HTTP/1.1".toList) := by
    rw [Text.cut_eq_some_iff]
    constructor
    · simp [requestLine]
    · decide
  have hpath : Text.cut ' ' (target.path.toList ++ " HTTP/1.1".toList) =
      some (target.path.toList, "HTTP/1.1".toList) :=
    Text.cut_eq_some_iff.2 ⟨by simp, h⟩
  have htoken : Method.ofToken "POST".toList = .post := by decide
  rw [lineText_encode, ← FirstLine.ofText_eq_spelled, FirstLine.ofText, Text.before, Text.after,
    hmethod]
  simp only
  rw [Text.before, hpath, htoken]
  simp

/-- Of the header lines only the last one declares a length, and that is the true one. -/
theorem declaredBy_headerFields {e : Envelope} {target : Address}
    (h : e.contentLength ≤ Number.greatest) :
    declaredBy ((e.headerFields target).map Utf8.encode) 0 = e.contentLength := by
  have hhost : lengthOf? (Utf8.encode ("Host: " ++ target.host)) = none := by
    rw [lengthOf?, lineText_encode]
    simp
  have hkeep : lengthOf? (Utf8.encode "Connection: keep-alive") = none := by
    rw [lengthOf?, lineText_encode]
    decide
  have htype : lengthOf? (Utf8.encode ("Content-Type: " ++ e.contentType)) = none := by
    rw [lengthOf?, lineText_encode]
    simp
  have hlength : lengthOf? (Utf8.encode ("Content-Length: " ++ toString e.contentLength)) =
      some e.contentLength := by
    have hblank : Text.isBlank ' ' = true := by decide
    have htext : ("Content-Length: " ++ toString e.contentLength).toList =
        "Content-Length:".toList ++ ' ' :: Nat.toDigits 10 e.contentLength := by simp
    have hname : "CONTENT-LENGTH:".toList.length = "Content-Length:".toList.length ∧
        "Content-Length:".toList.map Char.toUpper = "CONTENT-LENGTH:".toList := by decide
    simp only [lengthOf?, lineText_encode, htext, hname, List.take_left, List.drop_left, if_true,
      Number.leading_cons_of_isBlank hblank, Number.leading_toDigits, Nat.min_eq_left h,
      Int.toNat_natCast]
  simp only [headerFields, List.map_cons, List.map_nil, declaredBy_cons, hhost, hkeep, htype,
    hlength, Option.getD_none, Option.getD_some]
  rfl

theorem Plain.requestLine {e : Envelope} {target : Address} (h : e.Plain target) :
    Text.OneLine (requestLine target) := by
  have hmethod : Text.OneLine "POST " := by simp [Text.OneLine]
  have hversion : Text.OneLine " HTTP/1.1" := by simp [Text.OneLine]
  exact Text.oneLine_append.2 ⟨Text.oneLine_append.2 ⟨hmethod, h.path⟩, hversion⟩

theorem Plain.headerFields {e : Envelope} {target : Address} (h : e.Plain target) :
    ∀ s ∈ e.headerFields target, Text.OneLine s := by
  have hhost : Text.OneLine "Host: " := by simp [Text.OneLine]
  have hkeep : Text.OneLine "Connection: keep-alive" := by simp [Text.OneLine]
  have htype : Text.OneLine "Content-Type: " := by simp [Text.OneLine]
  have hform : Text.OneLine "multipart/form-data; boundary=" := by simp [Text.OneLine]
  have hlength : Text.OneLine "Content-Length: " := by simp [Text.OneLine]
  unfold Envelope.headerFields
  refine List.forall_mem_cons.2 ⟨Text.oneLine_append.2 ⟨hhost, h.host⟩, ?_⟩
  refine List.forall_mem_cons.2 ⟨hkeep, ?_⟩
  refine List.forall_mem_cons.2
    ⟨Text.oneLine_append.2 ⟨htype, Text.oneLine_append.2 ⟨hform, h.boundary⟩⟩, ?_⟩
  refine List.forall_mem_cons.2 ⟨?_, List.forall_mem_nil _⟩
  exact Text.oneLine_append.2 ⟨hlength, Text.oneLine_toString _⟩

theorem requestLine_ne_empty (target : Address) : requestLine target ≠ "" := by
  intro h
  have := congrArg String.toList h
  simp [requestLine] at this

theorem ne_empty_of_mem_headerFields {e : Envelope} {target : Address} :
    ∀ s ∈ e.headerFields target, s ≠ "" := by
  simp [headerFields]

/-- Up to the empty line behind it, the head of a request is taken whole. -/
theorem feed_head {limits : Request.Limits} {e : Envelope} {target : Address}
    (hplain : e.Plain target) (hfits : e.Fits target limits) :
    ∃ used, feed limits start
        (lineBytes (requestLine target) ++ (e.headerFields target).flatMap lineBytes) =
      ⟨inLine (some (⟨.post, target.path⟩, e.contentLength)) [] used,
        (lineBytes (requestLine target) ++ (e.headerFields target).flatMap lineBytes).length,
        none⟩ := by
  obtain ⟨hline, hlines⟩ := List.forall_mem_cons.1 hfits.lines
  have hne : Utf8.encode (requestLine target) ≠ [] := fun h =>
    requestLine_ne_empty target (Utf8.encode_eq_nil_iff.1 h)
  have hfirst := feed_lineBytes none 0 hplain.requestLine hline (fun h => by contradiction)
    (receive_firstLine_end hne _)
  rw [ofText_requestLine hplain.token] at hfirst
  have hfields := feed_headerLines ⟨.post, target.path⟩ (e.headerFields target) 0 0
    hplain.headerFields ne_empty_of_mem_headerFields hlines
    (by rw [Nat.zero_add]; exact hfits.headers)
  rw [declaredBy_headerFields hfits.countable] at hfields
  have hstart : start = inLine none [] 0 := rfl
  rw [hstart, feed_append_of_fault_none (by rw [hfirst]), hfirst, hfields, Fed.andThen,
    List.length_append]
  exact ⟨_, rfl⟩

/-- The body that a request declares is the one that it has. -/
theorem bodyReading_body {limits : Request.Limits} {e : Envelope} {target : Address}
    (h : e.contentLength ≤ limits.body) (more : List UInt8) :
    bodyReading limits ⟨.post, target.path⟩ e.contentLength
        (e.head ++ e.image ++ e.tail ++ more) =
      .complete (e.asRequest target) more := by
  have hlength : e.contentLength = (e.head ++ e.image ++ e.tail).length := by
    simp only [contentLength, List.length_append]
  rw [bodyReading, asRequest, hlength]
  rw [hlength] at h
  by_cases hempty : 0 < (e.head ++ e.image ++ e.tail).length
  · rw [if_pos ⟨rfl, hempty⟩, if_neg (by omega), if_neg (by rw [List.length_append]; omega),
      List.take_left, List.drop_left]
  · have hnil : e.head ++ e.image ++ e.tail = [] := List.length_eq_zero_iff.1 (by omega)
    have hnone : Utf8.decodeLossy [] = "" := Utf8.decodeLossy_encode ""
    rw [if_neg (fun hc => hempty hc.2), hnil, hnone, List.nil_append, List.length_nil]

/-- The bytes of a request are read as that request, and what stands behind them is left. -/
theorem feed_wire_tells {limits : Request.Limits} {e : Envelope} {target : Address}
    (hplain : e.Plain target) (hfits : e.Fits target limits) (more : List UInt8) :
    (Reading.complete (e.asRequest target) more).Tells (e.wire target ++ more)
      (feed limits start (e.wire target ++ more)) := by
  obtain ⟨used, hhead⟩ := feed_head hplain hfits
  have hempty := feed_empty_line_tells limits ⟨.post, target.path⟩ e.contentLength used
    (e.head ++ e.image ++ e.tail ++ more)
  rw [bodyReading_body hfits.body more] at hempty
  have hreturn : feed limits (inLine (some (⟨.post, target.path⟩, e.contentLength)) [] used)
      ['\r'.toUInt8] =
        ⟨inLine (some (⟨.post, target.path⟩, e.contentLength)) [] used, ['\r'.toUInt8].length,
          none⟩ := rfl
  have hwire : e.wire target ++ more =
      (lineBytes (requestLine target) ++ (e.headerFields target).flatMap lineBytes) ++
        (['\r'.toUInt8] ++ '\n'.toUInt8 :: (e.head ++ e.image ++ e.tail ++ more)) := by
    rw [wire, encode_requestHead]
    simp only [List.append_assoc, List.cons_append, List.nil_append]
  rw [hwire]
  exact (hempty.of_rest hreturn).of_rest hhead

end Envelope

/-- A server that gives the bytes of uploads to one new receiver after another reads these
requests, one after the other: each receiver is complete just at the end of its own request, and
nothing is left in the end. -/
theorem requestsOf_wires (limits : Request.Limits) (sent : List (Envelope × Address))
    (hplain : ∀ s ∈ sent, s.1.Plain s.2) (hfits : ∀ s ∈ sent, s.1.Fits s.2 limits) :
    requestsOf limits (sent.flatMap fun s => s.1.wire s.2) =
      (sent.map fun s => ⟨s.1.asRequest s.2, (s.1.wire s.2).length⟩, []) := by
  induction sent with
  | nil => exact requestsOf_of_none rfl
  | cons s sent ih =>
      rw [List.forall_mem_cons] at hplain hfits
      have hfirst := takeOne_of_tells (Envelope.feed_wire_tells hplain.1 hfits.1
        (sent.flatMap fun s => s.1.wire s.2))
      rw [List.flatMap_cons, requestsOf_of_some hfirst, List.drop_left, ih hplain.2 hfits.2,
        List.map_cons]

/-- Two uploads, of which the first has an image that looks like the beginning of a request, and the
second is empty. -/
theorem requestsOf_image_like_request :
    let image := Utf8.encode "\r\n\r\nPOST /x HTTP/1.1\r\nContent-Length: 3\r\n\r\n"
    let first : Envelope := ⟨"b", Utf8.encode "--b\r\n\r\n", image, Utf8.encode "\r\n--b--\r\n"⟩
    let second : Envelope := ⟨"b", [], [], []⟩
    let sent : List (Envelope × Address) :=
      [(first, ⟨"camera", 80, "/upload?to=é"⟩), (second, ⟨"camera", 80, "/"⟩)]
    (∀ s ∈ sent, s.1.Plain s.2) ∧ (∀ s ∈ sent, s.1.Fits s.2 {}) ∧
      requestsOf {} (sent.flatMap fun s => s.1.wire s.2) =
        (sent.map fun s => ⟨s.1.asRequest s.2, (s.1.wire s.2).length⟩, []) := by
  intro image first second sent
  have hplain : ∀ s ∈ sent, s.1.Plain s.2 := by
    refine List.forall_mem_cons.2 ⟨?_, List.forall_mem_singleton.2 ?_⟩
    · constructor <;> simp [first, Text.OneLine]
    · constructor <;> simp [second, Text.OneLine]
  have hfits : ∀ s ∈ sent, s.1.Fits s.2 {} := by
    refine List.forall_mem_cons.2 ⟨?_, List.forall_mem_singleton.2 ?_⟩
    · constructor <;> decide +kernel
    · constructor <;> decide +kernel
  exact ⟨hplain, hfits, requestsOf_wires {} sent hplain hfits⟩

end Upload

end FieldCamera
