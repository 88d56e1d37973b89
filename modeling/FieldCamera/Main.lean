import FieldCamera.Command.Execution
import Std.Async.DNS
import Std.Async.Signal
import Std.Async.TCP
/-!
# The program

Carries out the command line among the files and connections of a machine. What a peer sends and
takes is noted with the pauses between, and the functions that read such notes decide what is
answered, which connection is used, and how long it is worth waiting for more.
-/

namespace FieldCamera.Live

open Std.Async
open Std.Async.TCP.Socket (Client Server)

/-! ## Files -/

/-- What stands at a path. -/
def entryAt (path : String) : IO (Option Files.Entry) := do
  try
    return some (.file (← IO.FS.readBinFile path).toList)
  catch
    | .inappropriateType .. => return some .directory
    | _ => return none

/-- The files at some paths, with the directories that lead to them. -/
def look (paths : List String) : IO Files := do
  let home := Files.names (← IO.currentDir).toString
  (paths.flatMap (Files.passes home)).foldlM (fun files way => do
    match ← entryAt ("/" ++ "/".intercalate way) with
    | some entry => return files.put way entry
    | none => return files) { home := home }

/-- Makes the file at a path what it is in `files`. -/
def keep (before after : Files) (path : String) : IO Unit := do
  match (before.read path).toOption, (after.read path).toOption with
  | old, some content =>
    if old != some content then IO.FS.writeBinFile path ⟨content.toArray⟩
  | some _, none => IO.FS.removeFile path
  | none, none => return

/-! ## Waiting -/

/-- Takes one step after another up to one that ends. -/
partial def goOn {α β : Type} (step : α → IO (α ⊕ β)) (a : α) : IO β := do
  match ← step a with
  | .inl next => goOn step next
  | .inr b => return b

/-- Waits until something holds, but not past a deadline, and tells whether it came to that. -/
partial def await (holds : IO Bool) (deadline : Option Nat := none) : IO Bool := do
  if ← holds then return true
  if let some time := deadline then
    if time ≤ (← IO.monoMsNow) then return false
  IO.sleep 1
  await holds deadline

/-- The call to stop, which is made when the program is interrupted. -/
abbrev Call := AsyncTask Int

def Call.isRaised (call : Call) : IO Bool :=
  IO.hasFinished call

/-- Waits up to a deadline unless the call breaks the wait off, and tells when. -/
def Call.break? (call : Call) (deadline : Nat) : IO (Option Nat) := do
  if ← await call.isRaised (some deadline) then return some (← IO.monoMsNow)
  return none

/-! ## Connections -/

/-- The system's number for an error; those of sockets are counted down from zero. -/
def numberOf (e : IO.Error) : Nat :=
  let code : UInt32 :=
    match e with
    | .otherError c _ | .resourceBusy c _ | .resourceVanished c _ | .unsupportedOperation c _
    | .hardwareFault c _ | .unsatisfiedConstraints c _ | .illegalOperation c _
    | .protocolError c _ | .timeExpired c _ => c
    | .alreadyExists _ c _ | .interrupted _ c _ | .noFileOrDirectory _ c _
    | .invalidArgument _ c _ | .permissionDenied _ c _ | .resourceExhausted _ c _
    | .inappropriateType _ c _ | .noSuchThing _ c _ => c
    | .unexpectedEof | .userError _ => 0
  if code < 0x80000000 then code.toNat else (0 - code).toNat

/-- What is told of an error on a connection. -/
def reasonOf (e : IO.Error) : String :=
  let told (word : String) := s!"{word} (os error {numberOf e})"
  match numberOf e with
  | 32 => told "Broken pipe"
  | 101 => told "Network is unreachable"
  | 104 => told "Connection reset by peer"
  | 110 => told "Connection timed out"
  | 111 => told "Connection refused"
  | 113 => told "No route to host"
  | 3001 => "failed to lookup address information: Temporary failure in name resolution"
  | 3008 => "failed to lookup address information: Name or service not known"
  | _ => toString e

/-- A socket, and what has been noted of it. -/
structure Peer where
  socket : Client
  /-- What is to arrive next. -/
  awaited : IO.Promise (Except IO.Error (Option ByteArray))
  /-- What has arrived, the last first. -/
  notes : List Link.Arrival := []
  hasEnded : Bool := false
  /-- What has become of the bytes that were sent, piece by piece, the last first. -/
  uptakes : List Link.Uptake := []
  /-- Since when notes are made. -/
  start : Nat
  /-- When the last note was made. -/
  notedAt : Nat

/-- The most bytes of one note. -/
def noteSize : UInt64 := 4096

def Peer.of (socket : Client) : IO Peer := do
  let now ← IO.monoMsNow
  return {
    socket := socket
    awaited := ← socket.native.recv? noteSize
    start := now
    notedAt := now }

/-- The same peer with nothing noted. -/
def Peer.afresh (p : Peer) : IO Peer := do
  let now ← IO.monoMsNow
  return { p with notes := [], uptakes := [], start := now, notedAt := now }

/-- What was noted, as a stream that stays silent behind it or has ended. -/
def Peer.stream (p : Peer) : Link.Stream :=
  { arrivals := p.notes.reverse, staysOpen := !p.hasEnded, uptakes := p.uptakes.reverse }

/-- The same where all that arrives is held to answer what is sent first. -/
def Peer.answers (p : Peer) : Link.Stream :=
  { p.stream with arrivals := .untilFlush 1 :: p.notes.reverse }

/-- Notes what has arrived. -/
def Peer.note (p : Peer) : IO Peer := do
  match p.awaited.result?.get with
  | some (.ok (some bytes)) =>
    let now ← IO.monoMsNow
    return { p with
      awaited := ← p.socket.native.recv? noteSize
      notes := .bytes bytes.toList :: .pause (now - p.notedAt) :: p.notes
      notedAt := now }
  | _ => return { p with hasEnded := true }

/-- Waits up to `deadline` for something to arrive, and notes it. -/
def Peer.wait (p : Peer) (deadline : Nat) : IO (Option Peer) := do
  if ← await p.awaited.isResolved (some deadline) then return some (← p.note)
  return none

/-- Notes arrivals until the judgement of them stands. A judgement is a result and when it is
reached, counted from the start of the notes. -/
def Peer.heed {α : Type} (judge : Peer → α × Nat) : Peer → IO (α × Peer) :=
  goOn fun p => do
    let (result, reached) := judge p
    if p.hasEnded || p.start + reached ≤ (← IO.monoMsNow) then return .inr (result, p)
    match ← p.wait (p.start + reached) with
    | some p => return .inl p
    | none => return .inr (result, p)

/-- Offers bytes for so many milliseconds, and tells what became of them. -/
def Peer.offer (p : Peer) (limit : Nat) (bytes : List UInt8) : IO Link.Uptake := do
  let start ← IO.monoMsNow
  let sending ← (p.socket.send ⟨bytes.toArray⟩).toIO
  if ← await (IO.hasFinished sending) (some (start + limit)) then
    let took := min limit ((← IO.monoMsNow) - start)
    match sending.get with
    | .ok () => return .takes took bytes.length
    | .error e => return .fault took (reasonOf e)
  return .stall

/-- Sends pieces up to the first that is not taken, each for so many milliseconds, and notes what
becomes of them. -/
def Peer.send (p : Peer) (limit : Nat) : List (List UInt8) → IO Peer
  | [] => return { p with notedAt := ← IO.monoMsNow }
  | piece :: rest => do
    let uptake ← p.offer limit piece
    let p := { p with uptakes := uptake :: p.uptakes }
    match uptake with
    | .takes .. => p.send limit rest
    | _ => return p

def Peer.close (p : Peer) : IO Unit := do
  try Async.block p.socket.shutdown catch _ => return

/-- The socket addresses that a host name stands for. -/
def addressesOf (a : Address) : IO (List Std.Net.SocketAddress) := do
  let found ← Async.block (DNS.getAddrInfo a.host (toString a.port.toNat))
  return found.toList.map fun
    | .v4 ip => .v4 ⟨ip, a.port⟩
    | .v6 ip => .v6 ⟨ip, a.port⟩

/-- Opens a connection, or tells why there is none. -/
def connect (a : Address) : IO (Except String Peer) := do
  try
    match ← addressesOf a with
    | [] => return .error "failed to lookup address information"
    | target :: _ =>
      let socket ← Client.mk
      Async.block (socket.connect target)
      return .ok (← Peer.of socket)
  catch e => return .error (reasonOf e)

/-! ## The portal -/

/-- The address in the form that sockets take. -/
def socketAddress : SocketAddress → Std.Net.SocketAddress
  | .v4 octets port =>
    let o (i : Nat) : UInt8 := (octets.getD i 0).toUInt8
    .v4 ⟨.ofParts (o 0) (o 1) (o 2) (o 3), port.toUInt16⟩
  | .v6 groups _ port =>
    let g (i : Nat) : UInt16 := (groups.getD i 0).toUInt16
    .v6 ⟨.ofParts (g 0) (g 1) (g 2) (g 3) (g 4) (g 5) (g 6) (g 7), port.toUInt16⟩

/-- Listens on an address, or tells what speaks against it. -/
def listen (address : String) :
    IO (Except Setup.Listener.Fault SocketAddress × Option Server) := do
  match Setup.Listener.bind (fun _ => none) address with
  | .error fault => return (.error fault, none)
  | .ok a =>
    try
      let server ← Server.mk
      server.bind (socketAddress a)
      server.listen 128
      return (.ok a, some server)
    catch e =>
      let cause : SystemFault := match numberOf e with
        | 13 => .permissionDenied
        | 99 => .addressNotAvailable
        | _ => .addressInUse
      return (.error (.unavailable a cause), none)

/-- Receives one client, and writes what was saved before the answer goes out. -/
def receive (patience : Setup.Patience) (p : Setup.Portal RecordFiles) (socket : Client) :
    IO (Setup.Visit RecordFiles) := do
  let (visit, peer) ← (← Peer.of socket).heed fun peer =>
    let visit := p.receive patience 0 peer.stream
    (visit, visit.now)
  for path in [p.store.recordPath, p.store.flagPath] do
    keep p.store.files visit.portal.store.files path
  let peer ← peer.send patience.idleMs [visit.stream.written]
  peer.close
  return visit

/-- The pause after a client could not be let in. -/
def acceptPauseMs : UInt32 := 100

/-- Receives one client after another until one saves a configuration, or until the call. -/
def serve (call : Call) (patience : Setup.Patience) (server : Server) :
    Setup.Portal RecordFiles → IO (Option Device) :=
  goOn fun p => do
    let client ← server.accept.toIO
    let _ ← await (IO.hasFinished client <||> call.isRaised)
    if !(← IO.hasFinished client) then return .inr none
    match client.get with
    | .error _ =>
      IO.sleep acceptPauseMs
      return .inl p
    | .ok socket =>
      let visit ← receive patience p socket
      return if visit.stops then .inr (some visit.portal.device) else .inl visit.portal

/-! ## The collector -/

/-- The connection to the collector, as it is reckoned and as it is. -/
structure Line where
  held : Upload.Connection
  peer : Peer

/-- What a line has brought that no reply has used, since there is no telling when. -/
def Line.unheard (line : Line) : List Link.Arrival :=
  (line.held.reader.stream.arrivals ++ line.peer.notes.reverse).filter fun
    | .bytes _ => true
    | _ => false

/-- The line for the next request, if it is still fit for one. -/
def Line.refresh (line : Line) : IO (Option Line) := do
  let peer := (← line.peer.wait 0).getD line.peer
  let line := { line with peer := peer }
  let reader := { line.held.reader with
    stream := { peer.stream with arrivals := line.unheard } }
  let u : Upload.Uplink := { dials := [], held := some { line.held with reader := reader } }
  if (u.refresh 0).isConnected then return some line
  peer.close
  return none

/-- The uplink of a request that a peer answers: on the connection that is held, else on a new
one. -/
def answeredBy (held : Option Upload.Connection) (p : Peer) : Upload.Uplink where
  dials := [{ answer := .ok p.answers }]
  held := held.map fun c => { c with reader := { stream := p.answers } }

/-- A name and a boundary from the clock and from chance. -/
def newStamp : IO Upload.Stamp := do
  let t ← Std.Time.PlainDateTime.now
  let salt ← IO.getRandomBytes 8
  let moment : Upload.Moment := ⟨t.year.toInt, t.month.val.toNat, t.day.val.toNat,
    t.hour.val.toNat, t.minute.val.toNat, t.second.val.toNat⟩
  let millis := (← Std.Time.Timestamp.now).toMillisecondsSinceUnixEpoch.val.toNat
  return ⟨Upload.captureName (some moment) 0,
    Upload.generatedBoundary millis (salt.toList.foldl (fun n b => n * 256 + b.toUInt64) 0)⟩

/-- Posts one frame, and tells which line is left. -/
def post (sender : Upload.Sender) (pace : Upload.Pace) (frame : Upload.Capture) (url : String)
    (line : Option Line) : IO (Except Upload.Fault Upload.Receipt × Option Line) := do
  let stamp ← newStamp
  let reckon := Upload.post sender pace stamp frame url 0
  match Upload.errand sender stamp frame url with
  | .error fault => return (.error fault, line)
  | .ok (target, e) =>
    let line ← line.bindM Line.refresh
    match ← line.elim (connect target) fun l => return .ok l.peer with
    | .error reason =>
      let (result, _) := reckon { dials := [{ answer := .error reason }] }
      return (result, none)
    | .ok peer =>
      let peer ← (← peer.afresh).send pace.writeMs (e.pieces target pace.chunkSize)
      let ((result, after), peer) ← peer.heed fun peer =>
        let (result, now, after) := reckon (answeredBy (line.map (·.held)) peer)
        ((result, after), now)
      match after.held with
      | some c => return (result, some ⟨c, ← peer.afresh⟩)
      | none =>
        peer.close
        return (result, none)

/-- Posts what stands in an image file, in rounds until the call. -/
def postRounds (call : Call) (sender : Upload.Sender) (pace : Upload.Pace) (image : String)
    (device : Device) : IO Upload.Tally := do
  let once (_ : Nat) : StateT (Option Line) IO (Bool × Nat) := fun line => do
    let frame := Upload.frameFromFile (← look [image]) image
    let (result, line) ← post sender pace frame device.uploadUrl line
    return ((result.isOk, ← IO.monoMsNow), line)
  let pause (deadline _ : Nat) : StateT (Option Line) IO (Option Nat) := call.break? deadline
  let round := Upload.roundIn once pause device.captureIntervalMs
  goOn (fun (t, line) => do
    let (t, line) ← (round t).run line
    return t.map (·, line) id) (⟨0, 0, ← IO.monoMsNow⟩, none)

/-- Sends an enrolment, and reads the status of the answer. -/
def enrol (url : String) (e : Enrolment) : IO (Option Nat) := do
  match Address.ofUrl url with
  | .error _ => return none
  | .ok target =>
    match ← connect target with
    | .error _ => return none
    | .ok peer =>
      let pace : Upload.Pace := {}
      let peer ← peer.send pace.writeMs [Utf8.encode (e.request target)]
      let (status, peer) ← (← peer.afresh).heed fun peer =>
        let step := Upload.Reply.receive pace.reply 0 { stream := peer.stream }
        (step.result.toOption.map (·.status), step.now)
      peer.close
      return status

/-! ## Activities -/

/-- A token of sixteen random bytes. -/
def newToken : IO Setup.Token := do
  let bytes ← IO.getRandomBytes 16
  return ⟨String.join (bytes.toList.map fun b => Text.hexPadded 2 b.toNat)⟩

/-- Carries out an activity; `server` is where the node listens. -/
def perform {α : Type} (call : Call) : Activity α → Option Server → IO α
  | .done a, _ => return a
  | .look paths next, server => do perform call (next (← look paths)) server
  | .listen address next, _ => do
    let (result, server) ← listen address
    perform call (next result) server
  | .serve patience store device next, server => do
    let saved ← server.elim (return none) fun server => do
      serve call patience server ⟨device, store, ← newToken⟩
    perform call (next saved) none
  | .enrol url e next, server => do perform call (next (← enrol url e)) server
  | .post sender pace frame url next, server => do
    let (result, _) ← post sender pace frame url none
    perform call (next result) server
  | .postRounds sender pace image device next, server => do
    let _ ← postRounds call sender pace image device
    perform call next server

end FieldCamera.Live

/-- The program: carries out the command line and leaves with its exit status. An interruption does
not end it but is a call to stop. -/
def main (args : List String) : IO UInt32 := do
  let call ← (← Std.Async.Signal.Waiter.mk .sigint true).wait
  let ending ← FieldCamera.Live.perform call (FieldCamera.Invocation.execute args) none
  IO.print ending.output
  IO.eprint ending.errors
  return ending.status.toUInt32
