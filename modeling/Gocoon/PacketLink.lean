import Gocoon.FailedWrites
import Gocoon.ReadLoop
import Gocoon.TransportWriters

/-!
# A framed connection is a queue of packets

Two ends of one connection. Any number of goroutines write frames under `writeMu`, each in three
steps, and the connection may break at any `Write`, after which every later one fails. At the other
end `transport.Run` gets the bytes in pieces of any size. Between the two ends lies what was written
and not yet read, often in the middle of a frame. Still the loop hands on the packets of the calls
that returned nil, in the order in which they held the lock, each once and unchanged.
-/

namespace Gocoon.PacketLink

open Gocoon.LittleEndianBytes
open Gocoon.GoProgram
open Gocoon.TlPrimitives
open Gocoon.TlFrame
open Gocoon.TlTcpPacket
open Gocoon.FailedWrites
open Gocoon.MutexSections
open Gocoon.TransportWriters
open Gocoon.PartialReads
open Gocoon.ReadLoop (Loop Position newLoop loopProgram readFails between fed_frame fed_header
  read_frame_header checkHeader)
open Gocoon.TransitionRuns

set_option autoImplicit false

def packetOf : Send → Except (Fault TlError) DecodedTCPPacket
  | .sendQuery id body => .ok { kind := .query, id := id, data := body }
  | .sendPacket body => .ok { kind := .packet, data := body }
  | .sendConnect id => .ok { kind := .connect, id := id }
  | .pong id => .ok { kind := .pong, id := id }
  | .keepalivePing id => .ok { kind := .ping, id := id }
  | .writeFrame payload => decodeTCPPacket payload

structure Link where
  writers : Transport
  taken : Nat
  loop : Reading Byte Loop

def newLink : Link where
  writers := newTransport
  taken := 0
  loop := ⟨newLoop, []⟩

/-- Everything that was written so far; the first `taken` bytes of it have been read. -/
def Link.wire (link : Link) : List Byte := link.writers.shared.2.written

def finishing (writers : Transport) : List Send :=
  match writers.owner with
  | none => []
  | some owner =>
      match writers.state owner with
      | .leaving call none => [call]
      | _ => []

def Link.sent (link : Link) : List Send :=
  (sentCalls link.writers.completed).map (·.call) ++ finishing link.writers

inductive LinkStep where
  | write (label : CallerStep Send)
  | read (count : Nat)
  | readFails (cause : IoError)

/-- A `Read` returns `count` bytes, of those that are there and of those that are asked for. -/
def Link.read (link : Link) (count : Nat) : Option Link :=
  let piece := (link.wire.drop link.taken).take count
  if piece.length = count ∧ Fits loopProgram link.loop piece then
    some { link with taken := link.taken + count, loop := accept loopProgram link.loop piece }
  else none

/-- `EOF` comes behind the last byte, another error at any time. -/
def Link.failRead (link : Link) (cause : IoError) : Option Link :=
  if loopProgram.wants link.loop.state = 0 ∨ cause = .eof ∧ link.taken ≠ link.wire.length then none
  else some { link with loop := ⟨readFails link.loop cause, []⟩ }

def step (faults : WriteFaults) (link : Link) : LinkStep → Option Link
  | .write label =>
      (transportStep faults link.writers label).map fun writers => { link with writers := writers }
  | .read count => link.read count
  | .readFails cause => link.failRead cause

/-- Once a `Write` has failed, all later ones fail. -/
def Severed (faults : WriteFaults) : Prop :=
  ∀ call later, call ≤ later → faults call ≠ none → faults later ≠ none

section Wire

variable {faults : WriteFaults}

def seqnoAfter : Int32 → List (List Byte) → Int32
  | seqno, [] => seqno
  | seqno, _ :: rest => seqnoAfter (seqno + 1) rest

theorem seqno_after_concat (seqno : Int32) (payloads : List (List Byte)) (payload : List Byte) :
    seqnoAfter seqno (payloads ++ [payload]) = seqnoAfter seqno payloads + 1 := by
  induction payloads generalizing seqno with
  | nil => rfl
  | cons first payloads ih => exact ih (seqno + 1)

theorem frames_bytes_concat (seqno : Int32) (payloads : List (List Byte)) (payload : List Byte) :
    framesBytes seqno (payloads ++ [payload]) =
      framesBytes seqno payloads ++ frameBytes (seqnoAfter seqno payloads) payload := by
  induction payloads generalizing seqno with
  | nil => simp [framesBytes, seqnoAfter]
  | cons first payloads ih => simp [framesBytes, seqnoAfter, ih]

def Tail (seqno : Int32) (tail : List Byte) : Prop :=
  tail = [] ∨ ∃ payload, Accepted payload ∧ tail = headerBytes payload seqno

/-- The connection after the frames `sent`: only a broken one ends inside a frame. -/
structure Carries (faults : WriteFaults) (now : Connection) (sent : List (List Byte)) : Prop where
  accepted : ∀ payload ∈ sent, Accepted payload
  bytes : ∃ tail, now.2.written = framesBytes 0 sent ++ tail ∧ Tail (seqnoAfter 0 sent) tail
  whole : faults now.2.calls = none →
    now.2.written = framesBytes 0 sent ∧ now.1.outSeqno = seqnoAfter 0 sent

theorem new_carries : Carries faults (newFramedConn, emptySink) [] where
  accepted := by simp
  bytes := ⟨[], rfl, .inl rfl⟩
  whole := fun _ => ⟨rfl, rfl⟩

theorem Carries.call (severed : Severed faults) {before after : Connection}
    {sent : List (List Byte)} {payload : List Byte} {result : Option FrameError}
    (carries : Carries faults before sent)
    (ran : writeFrame faults before.1 before.2 payload = (result, after)) :
    Carries faults after (if result = none then sent ++ [payload] else sent) := by
  obtain ⟨conn, sink⟩ := before
  cases call_case faults conn sink payload with
  | rejected error refused wrote =>
      obtain ⟨rfl, rfl⟩ := Prod.mk.inj (wrote.symm.trans ran)
      exact carries
  | unheaded cause accepted failed wrote =>
      obtain ⟨rfl, rfl⟩ := Prod.mk.inj (wrote.symm.trans ran)
      refine ⟨carries.accepted, carries.bytes, fun works => ?_⟩
      exact absurd works (severed sink.calls _ (Nat.le_succ _) (by simp [failed]))
  | cut cause accepted headed failed wrote =>
      obtain ⟨rfl, rfl⟩ := Prod.mk.inj (wrote.symm.trans ran)
      obtain ⟨written, seqno⟩ := carries.whole headed
      refine ⟨carries.accepted, ⟨headerBytes payload conn.outSeqno, ?_, ?_⟩, fun works => ?_⟩
      · simp only at written ⊢
        rw [written]
        rfl
      · exact .inr ⟨payload, accepted, congrArg (headerBytes payload) seqno⟩
      · exact absurd works (severed (sink.calls + 1) _ (Nat.le_succ _) (by simp [failed]))
  | whole accepted headed filled wrote =>
      obtain ⟨rfl, rfl⟩ := Prod.mk.inj (wrote.symm.trans ran)
      obtain ⟨written, seqno⟩ := carries.whole headed
      have bytes : sink.written ++ frameBytes conn.outSeqno payload =
          framesBytes 0 (sent ++ [payload]) := by
        simp only at written seqno
        rw [frames_bytes_concat, written, seqno]
      refine ⟨?_, ⟨[], by simpa using bytes, .inl rfl⟩, fun _ => ⟨bytes, ?_⟩⟩
      · intro other member
        rcases List.mem_append.mp member with old | new
        · exact carries.accepted other old
        · exact List.mem_singleton.mp new ▸ accepted
      · simp only at seqno
        simp only [if_true]
        rw [seqno_after_concat, seqno]

def sentPayloadsOf (completed : List (Completed Send (Option FrameError))) : List (List Byte) :=
  payloadsOf (sentCalls completed)

theorem serial_carries (severed : Severed faults)
    {completed : List (Completed Send (Option FrameError))} {now : Connection}
    (serial : Serial (writeSection faults) (newFramedConn, emptySink) completed now) :
    Carries faults now (sentPayloadsOf completed) := by
  induction serial with
  | nothing => exact new_carries
  | next done before after last earlier ran ih =>
      have alone : writeFrame faults before.1 before.2 last.call.payload = (last.result, after) :=
        progress_reached ran
      have grown : sentPayloadsOf (done ++ [last]) =
          if last.result = none then sentPayloadsOf done ++ [last.call.payload]
          else sentPayloadsOf done := by
        by_cases sent : last.result = none <;> simp [sentPayloadsOf, payloadsOf, sentCalls, sent]
      rw [grown]
      exact ih.call severed alone

/-- At every moment the wire holds the frames of the calls that have written them, and behind them
at most the header of the next one. -/
theorem wire_frames (severed : Severed faults) {writers : Transport}
    (ordered : Ordered (writeSection faults) (newFramedConn, emptySink) writers) :
    let payloads :=
      ((sentCalls writers.completed).map (·.call) ++ finishing writers).map Send.payload
    (∀ payload ∈ payloads, Accepted payload) ∧ ∃ tail,
      writers.shared.2.written = framesBytes 0 payloads ++ tail ∧
        Tail (seqnoAfter 0 payloads) tail := by
  obtain ⟨found, serial, now⟩ := ordered.settled
  have carries := serial_carries severed serial
  have done : ((sentCalls writers.completed).map (·.call)).map Send.payload =
      sentPayloadsOf writers.completed := by simp [sentPayloadsOf, payloadsOf]
  rw [List.map_append, done]
  cases owner : writers.owner with
  | none =>
      rw [owner] at now
      simp only [finishing, owner, List.map_nil, List.append_nil]
      rw [now]
      exact ⟨carries.accepted, carries.bytes⟩
  | some caller =>
      rw [owner] at now
      cases state : writers.state caller with
      | idle => simp [state, CallerState.Holds] at now
      | waiting call => simp [state, CallerState.Holds] at now
      | leaving call result =>
          simp only [state] at now
          have after := carries.call severed (progress_reached now)
          cases result with
          | none =>
              simp only [finishing, owner, state, List.map_cons, List.map_nil]
              exact ⟨after.accepted, after.bytes⟩
          | some error =>
              simp only [finishing, owner, state, List.map_nil, List.append_nil]
              exact ⟨after.accepted, after.bytes⟩
      | inside call position =>
          simp only [state] at now
          have reached := progress_reached now
          simp only [finishing, owner, state, List.map_nil, List.append_nil]
          refine ⟨carries.accepted, ?_⟩
          cases position with
          | check payload =>
              obtain ⟨-, same⟩ := reached
              rw [same]
              exact carries.bytes
          | header payload seqno =>
              obtain ⟨-, -, -, same⟩ := reached
              rw [same]
              exact carries.bytes
          | payload payload =>
              obtain ⟨-, accepted, -, headed⟩ := reached
              unfold Sink.write at headed
              cases works : faults found.2.calls with
              | some cause => simp [works] at headed
              | none =>
                  obtain ⟨written, seqno⟩ := carries.whole works
                  simp only [works, Prod.mk.injEq, true_and] at headed
                  rw [← headed]
                  refine ⟨_, congrArg (· ++ _) written, .inr ⟨call.payload, accepted, ?_⟩⟩
                  rw [seqno]

end Wire

section Reader

theorem payloads_grow (reading : Reading Byte Loop) (input : List Byte) :
    reading.state.payloads <+: (feed loopProgram reading input).state.payloads := by
  induction input generalizing reading with
  | nil => exact List.prefix_rfl
  | cons byte input ih =>
      refine List.IsPrefix.trans ?_ (ih (push loopProgram reading byte))
      unfold push
      split_ifs
      · exact List.prefix_rfl
      · simp only [loopProgram]
        split
        · split <;> exact List.prefix_rfl
        · exact List.prefix_append _ _
        · exact List.prefix_rfl
      · exact List.prefix_rfl

theorem fed_frames (conn : FramedConn) (strict : conn.strict = true)
    (known payloads : List (List Byte))
    (accepted : ∀ payload ∈ payloads, Accepted payload) (tail : List Byte) :
    feed loopProgram (between conn known) (framesBytes conn.inSeqno payloads ++ tail) =
      feed loopProgram (between { conn with inSeqno := seqnoAfter conn.inSeqno payloads }
        (known ++ payloads)) tail := by
  induction payloads generalizing conn known with
  | nil => simp [framesBytes, seqnoAfter]
  | cons payload payloads ih =>
      have read := read_frame_of_bytes conn strict payload
        (framesBytes (conn.inSeqno + 1) payloads ++ tail) (accepted payload (by simp))
      have later := ih { conn with inSeqno := conn.inSeqno + 1 } strict (known ++ [payload])
        (fun other member => accepted other (List.mem_cons_of_mem _ member))
      rw [framesBytes, List.append_assoc, (fed_frame read known).2, later]
      simp [seqnoAfter]

theorem header_checked (conn : FramedConn) (strict : conn.strict = true) (payload : List Byte)
    (accepted : Accepted payload) :
    ∃ length next, checkHeader conn (headerBytes payload conn.inSeqno) = (.ok length, next) := by
  have read := read_frame_of_bytes conn strict payload [] accepted
  have size : (headerBytes payload conn.inSeqno).length = 8 := by simp [headerBytes]
  have split : frameBytes conn.inSeqno payload ++ [] =
      headerBytes payload conn.inSeqno ++ payload := by simp [frameBytes, headerBytes]
  rw [split, read_frame_header conn _ payload size] at read
  rcases checked : checkHeader conn (headerBytes payload conn.inSeqno) with ⟨error | length, next⟩
  · simp [checked] at read
  · exact ⟨length, next, rfl⟩

/-- Behind whole frames and at most one header the loop has all payloads and goes on. -/
theorem fed_wire (payloads : List (List Byte)) (accepted : ∀ payload ∈ payloads, Accepted payload)
    (tail : List Byte) (ends : Tail (seqnoAfter 0 payloads) tail) :
    let reading := feed loopProgram ⟨newLoop, []⟩ (framesBytes 0 payloads ++ tail)
    reading.state.payloads = payloads ∧ ∀ error, reading.state.position ≠ .stopped error := by
  have whole : feed loopProgram ⟨newLoop, []⟩ (framesBytes 0 payloads ++ tail) =
      feed loopProgram (between { newFramedConn with inSeqno := seqnoAfter 0 payloads }
        ([] ++ payloads)) tail := fed_frames newFramedConn rfl [] payloads accepted tail
  rw [whole, List.nil_append]
  rcases ends with rfl | ⟨payload, fits, rfl⟩
  · exact ⟨rfl, fun _ => nofun⟩
  · obtain ⟨length, next, checked⟩ := header_checked
      { newFramedConn with inSeqno := seqnoAfter 0 payloads } rfl payload fits
    have size : (headerBytes payload (seqnoAfter 0 payloads)).length = 8 := by simp [headerBytes]
    have header := fed_header { newFramedConn with inSeqno := seqnoAfter 0 payloads } payloads
      size []
    rw [List.append_nil] at header
    rw [header]
    simp only [checked]
    exact ⟨rfl, fun _ => nofun⟩

end Reader

section Runs

variable {faults : WriteFaults}

theorem write_step_extends (position : WritePosition) (now : Connection) :
    now.2.written <+: (writeStep faults position now).1.2.written := by
  have appends : ∀ (sink : Sink) (data : List Byte),
      sink.written <+: (sink.write faults data).2.written := by
    intro sink data
    unfold Sink.write
    split
    · exact List.prefix_rfl
    · exact List.prefix_append _ _
  obtain ⟨conn, sink⟩ := now
  cases position with
  | check payload =>
      simp only [writeStep]
      split_ifs <;> exact List.prefix_rfl
  | header payload seqno =>
      have more := appends sink (headerBytes payload seqno)
      simp only [writeStep]
      split
      all_goals
        next outcome =>
          rw [outcome] at more
          exact more
  | payload payload =>
      have more := appends sink payload
      simp only [writeStep]
      split
      all_goals
        next outcome =>
          rw [outcome] at more
          exact more

theorem transport_step_extends {writers next : Transport} {label : CallerStep Send}
    (taken : transportStep faults writers label = some next) :
    writers.shared.2.written <+: next.shared.2.written := by
  cases step_case taken with
  | called caller call idle same => subst same; exact List.prefix_rfl
  | locked caller call waiting free same => subst same; exact List.prefix_rfl
  | acted caller call position inside same =>
      rw [same]
      exact write_step_extends position writers.shared
  | unlocked caller call result leaving same => subst same; exact List.prefix_rfl

/-- The loop has been fed what was taken off the wire, and may then have got an error. -/
structure Linked (faults : WriteFaults) (labels : List LinkStep) (link : Link) : Prop where
  ordered : Ordered (writeSection faults) (newFramedConn, emptySink) link.writers
  bound : link.taken ≤ link.wire.length
  fed : link.loop = feed loopProgram ⟨newLoop, []⟩ (link.wire.take link.taken) ∨
    (∃ cause, .readFails cause ∈ labels) ∧ loopProgram.wants link.loop.state = 0 ∧
      link.loop.state.payloads =
        (feed loopProgram ⟨newLoop, []⟩ (link.wire.take link.taken)).state.payloads

theorem read_fails_payloads (reading : Reading Byte Loop) (cause : IoError) :
    (readFails reading cause).payloads = reading.state.payloads := by
  unfold readFails
  split <;> rfl

theorem read_fails_stops (reading : Reading Byte Loop) (cause : IoError) :
    loopProgram.wants (readFails reading cause) = 0 := by
  unfold readFails
  split
  · rfl
  · rfl
  · next error stopped => simp [loopProgram, stopped]

theorem Linked.next {labels : List LinkStep} {link next : Link} {label : LinkStep}
    (linked : Linked faults labels link) (taken : step faults link label = some next) :
    Linked faults (labels ++ [label]) next := by
  cases label with
  | write label =>
      obtain ⟨writers, moved, rfl⟩ := Option.map_eq_some_iff.mp taken
      obtain ⟨more, grown⟩ := transport_step_extends moved
      have wire : ({ link with writers := writers } : Link).wire = link.wire ++ more := grown.symm
      have front : ({ link with writers := writers } : Link).wire.take link.taken =
          link.wire.take link.taken := by
        rw [wire, List.take_append_of_le_length linked.bound]
      refine ⟨step_ordered label linked.ordered moved, ?_, ?_⟩
      · rw [wire, List.length_append]
        exact linked.bound.trans (Nat.le_add_right _ _)
      · simp only [front]
        exact linked.fed.imp_right (.imp_left (.imp fun _ => List.mem_append_left _))
  | read count =>
      simp only [step, Link.read] at taken
      split_ifs at taken with allowed
      obtain rfl := Option.some.inj taken
      obtain ⟨size, fits⟩ := allowed
      have enough : link.taken + count ≤ link.wire.length := by
        rw [List.length_take, List.length_drop] at size
        have bound := linked.bound
        omega
      refine ⟨linked.ordered, enough, .inl ?_⟩
      have running : loopProgram.wants link.loop.state ≠ 0 := by
        have nonempty := List.length_pos_iff.mpr fits.1
        have room := fits.2
        omega
      have fed := linked.fed.resolve_right fun stopped => running stopped.2.1
      change accept loopProgram link.loop _ =
        feed loopProgram ⟨newLoop, []⟩ (link.wire.take (link.taken + count))
      rw [accept_eq_feed fits, List.take_add, feed_append, ← fed]
  | readFails cause =>
      simp only [step, Link.failRead] at taken
      split_ifs at taken with refused
      obtain rfl := Option.some.inj taken
      refine ⟨linked.ordered, linked.bound, .inr ⟨⟨cause, by simp⟩, read_fails_stops _ _, ?_⟩⟩
      rw [read_fails_payloads]
      rcases linked.fed with fed | ⟨-, stopped, -⟩
      · rw [fed]
        rfl
      · exact absurd (.inl stopped) refused

theorem run_link (labels : List LinkStep) (link : Link)
    (reached : runFrom (step faults) newLink labels = some link) : Linked faults labels link :=
  run_induction (step faults) newLink (Linked faults) ⟨fresh_ordered, Nat.zero_le _, .inl rfl⟩
    (fun _ _ _ _ _ linked taken => linked.next taken) labels link reached

end Runs

theorem decode_sent (send : Send) (accepted : Accepted send.payload) :
    decodeTCPPacket send.payload = packetOf send := by
  cases send with
  | sendQuery id body => exact decode_accepted_query id body accepted
  | sendPacket body => exact decode_accepted_packet body accepted
  | sendConnect id => exact decode_id_only _ .connect id read_body_cases.2.2.1
  | pong id => exact decode_id_only _ .pong id read_body_cases.2.1
  | keepalivePing id => exact decode_id_only _ .ping id read_body_cases.1
  | writeFrame payload => rfl

/-- The connection is a queue of packets. For every interleaving of the writers, every cut of the
bytes and any point at which the connection breaks, the packets handed on are the first ones of
those sent, in order; all of them when everything has been read. The loop never stops by itself. -/
theorem packet_link_delivers_in_order (faults : WriteFaults) (severed : Severed faults)
    (labels : List LinkStep) (link : Link)
    (reached : runFrom (step faults) newLink labels = some link) :
    let packets := link.loop.state.payloads.map decodeTCPPacket
    packets <+: link.sent.map packetOf ∧
    (link.taken = link.wire.length → packets = link.sent.map packetOf) ∧
    ((∀ cause, .readFails cause ∉ labels) →
      ∀ error, link.loop.state.position ≠ .stopped error) := by
  have linked := run_link labels link reached
  obtain ⟨accepted, tail, wire, ends⟩ := wire_frames severed linked.ordered
  obtain ⟨payloads, running⟩ := fed_wire _ accepted tail ends
  change link.wire = _ at wire
  rw [← wire] at payloads running
  have known : link.loop.state.payloads =
      (feed loopProgram ⟨newLoop, []⟩ (link.wire.take link.taken)).state.payloads := by
    rcases linked.fed with fed | ⟨-, -, same⟩
    · exact congrArg (·.state.payloads) fed
    · exact same
  have whole : feed loopProgram ⟨newLoop, []⟩ link.wire =
      feed loopProgram (feed loopProgram ⟨newLoop, []⟩ (link.wire.take link.taken))
        (link.wire.drop link.taken) := by
    rw [← feed_append, List.take_append_drop]
  have packets : (link.sent.map Send.payload).map decodeTCPPacket = link.sent.map packetOf := by
    rw [List.map_map]
    apply List.map_congr_left
    intro send member
    exact decode_sent send (accepted send.payload (List.mem_map_of_mem member))
  refine ⟨?_, ?_, ?_⟩
  · rw [← packets, known]
    have grown := payloads_grow (feed loopProgram ⟨newLoop, []⟩ (link.wire.take link.taken))
      (link.wire.drop link.taken)
    rw [← whole, payloads] at grown
    exact grown.map _
  · intro all
    rw [← packets, known, all, List.take_length, payloads]
    rfl
  · intro intact error stopped
    have fed := linked.fed.resolve_right fun broke => by
      obtain ⟨⟨cause, member⟩, -⟩ := broke
      exact intact cause member
    refine running error ?_
    rw [whole, ← fed, feed_stopped (by simp [loopProgram, stopped])]
    exact stopped

def cutConnection : WriteFaults :=
  fun call => if call < 3 then none else some (.other "broken pipe")

def cutSends : List LinkStep :=
  [.write (.call 0 (.pong 5)), .write (.lock 0), .write (.act 0), .write (.act 0), .read 5,
    .write (.call 1 (.sendPacket [1, 2])), .write (.act 0), .read 3, .write (.unlock 0),
    .write (.lock 1), .read 12, .write (.act 1), .write (.act 1), .write (.act 1), .read 2]

theorem cut_connection_delivers_first :
    ∃ link, runFrom (step cutConnection) newLink cutSends = some link ∧
      link.loop.state.payloads.map decodeTCPPacket = [packetOf (.pong 5)] ∧
      [packetOf (.pong 5)] <+: link.sent.map packetOf := by
  have shape : (runFrom (step cutConnection) newLink cutSends).map (·.loop.state.payloads) =
      some [encodeTCPPong 5] := by decide +kernel
  obtain ⟨link, reached, payloads⟩ := Option.map_eq_some_iff.mp shape
  have severed : Severed cutConnection := by
    intro call later order broken
    unfold cutConnection at broken ⊢
    split_ifs at broken with early
    · exact absurd rfl broken
    · rw [if_neg (by omega)]
      simp
  have packets : link.loop.state.payloads.map decodeTCPPacket = [packetOf (.pong 5)] := by
    rw [payloads]
    exact congrArg ([·]) (decode_sent (.pong 5) (by decide +kernel))
  have delivered := (packet_link_delivers_in_order cutConnection severed cutSends link reached).1
  exact ⟨link, reached, packets, packets ▸ delivered⟩

end Gocoon.PacketLink
