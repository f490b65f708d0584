import MiniOverlay.OrderedWriters
import MiniOverlay.PacketIo

/-!
# The threads of the MNP process on one overlay connection

`pkthandler`, `routeupdate_daemon` and `waitTransport` all call
`overlay_sendpkt` on the same connection without a lock. Each `send` call of it
appends its block in one piece, but the three blocks of one packet may be apart.
-/

namespace MiniOverlay

open DelimitedFrames FixedByteCodec OrderedWriters

set_option autoImplicit false

inductive MnpThread where
  | pkthandler
  | routeupdateDaemon
  | waitTransport
  deriving DecidableEq

def SendpktArg.blocks (arg : SendpktArg) : List (List Byte) :=
  overlaySendpkt arg.nextNodeID arg.pkt

def SendpktArg.image (arg : SendpktArg) : List Byte := sendpktArgCodec.encode arg

theorem sendpkt_blocks (arg : SendpktArg) : arg.blocks = [bufStart, arg.image, bufEnd] := rfl

theorem sendpkt_blocks_length (arg : SendpktArg) : arg.blocks.length = 3 := rfl

theorem sendpkt_image_length (arg : SendpktArg) : arg.image.length = sendpktArgCodec.width :=
  sendpktArgCodec.encode_length arg

theorem sendpkt_blocks_flatten (arg : SendpktArg) :
    arg.blocks.flatten = recordFrame sendpktArgCodec arg :=
  send_delimited_flatten _

theorem getpkt_to_send_eq : getpktToSend = recvRecord sendpktArgCodec := rfl

variable {Thread : Type} [DecidableEq Thread]

def sendCalls (args : Thread → List SendpktArg) : Thread → List (List Byte) :=
  expandCalls SendpktArg.blocks args

def overlayStream (blocks : Thread → List (List Byte)) (schedule : List Thread) : List Byte :=
  (weave blocks schedule).flatMap Prod.snd

/-- The ON process gets every packet once and unaltered, each thread's packets
in the thread's order, and then the end of the stream. -/
def ArriveIntact (args : Thread → List SendpktArg) (schedule : List Thread) : Prop :=
  ∃ delivered : List (Thread × SendpktArg),
    (∀ thread, ownBlocks delivered thread = args thread) ∧
    let results := calls getpktToSend (delivered.length + 1)
      (overlayStream (sendCalls args) schedule)
    results.map Read.value? = delivered.map (fun entry => some entry.2) ++ [none] ∧
      results.getLast? = some .ended

/-- No `send` of another thread comes between the three of one packet. -/
def SendsTogether (schedule : List Thread) : Prop :=
  ∃ order : List Thread, schedule = order.flatMap (List.replicate 3)

theorem overlay_stream_cons {blocks : Thread → List (List Byte)} {thread : Thread}
    {block : List Byte} {later : List (List Byte)} (head : blocks thread = block :: later)
    (schedule : List Thread) :
    overlayStream blocks (thread :: schedule) =
      block ++ overlayStream (Function.update blocks thread later) schedule := by
  rw [overlayStream, weave_cons head, List.flatMap_cons]
  rfl

theorem overlay_stream_replicate (blocks : Thread → List (List Byte)) (thread : Thread)
    (call later : List (List Byte)) (held : blocks thread = call ++ later)
    (schedule : List Thread) :
    overlayStream blocks (List.replicate call.length thread ++ schedule) =
      call.flatten ++ overlayStream (Function.update blocks thread later) schedule := by
  rw [overlayStream, weave_replicate _ _ _ _ held, List.flatMap_append, List.flatMap_map,
    List.flatMap_id']
  rfl

theorem together_stream (args : Thread → List SendpktArg) (order : List Thread)
    (complete : IsSchedule args order) :
    overlayStream (sendCalls args) (order.flatMap (List.replicate 3)) =
      ((weave args order).map Prod.snd).flatMap (recordFrame sendpktArgCodec) := by
  rw [overlayStream, sendCalls, weave_calls sendpkt_blocks_length order complete,
    List.flatMap_assoc, List.flatMap_map]
  apply congrArg ((weave args order).flatMap ·)
  funext entry
  rw [List.flatMap_map, ← sendpkt_blocks_flatten, List.flatMap_id']

theorem arrive_of_together (args : Thread → List SendpktArg) (schedule : List Thread)
    (clean : ∀ thread, ∀ arg ∈ args thread, Clean markers arg.image)
    (complete : IsSchedule (sendCalls args) schedule) (together : SendsTogether schedule) :
    ArriveIntact args schedule := by
  obtain ⟨order, rfl⟩ := together
  have ordered := (whole_calls_iff (by decide) sendpkt_blocks_length order).mp complete
  have own := own_blocks_weave args order ordered
  have allClean : ∀ arg ∈ (weave args order).map Prod.snd, Clean markers arg.image := by
    intro arg member
    obtain ⟨entry, written, rfl⟩ := List.mem_map.mp member
    apply clean entry.1
    rw [← own entry.1]
    exact List.mem_map_of_mem (List.mem_filter.mpr ⟨written, by simp⟩)
  have received := calls_ended sendpktArgCodec _ allClean
  rw [List.length_map, ← together_stream args order ordered, ← getpkt_to_send_eq] at received
  refine ⟨weave args order, own, ?_, ?_⟩
  · rw [received, List.map_append, got_all_values, List.map_map]
    rfl
  · rw [received, List.getLast?_concat]

def Opened (blocks : List (List Byte)) : Prop :=
  ∃ image later, blocks = image :: later ∧ image.length = sendpktArgCodec.width ∧
    Clean markers image

def AtBoundary (blocks : List (List Byte)) : Prop :=
  blocks = [] ∨ ∃ later, blocks = bufStart :: later ∧ Opened later

theorem opened_stream (blocks : Thread → List (List Byte)) (schedule : List Thread)
    (complete : IsSchedule blocks schedule)
    (between : ∀ thread, AtBoundary (blocks thread) ∨ Opened (blocks thread))
    (opened : ∃ thread, Opened (blocks thread)) :
    ∃ count image tail, overlayStream blocks schedule =
        (List.replicate count bufStart).flatten ++ (image ++ tail) ∧
      image.length = sendpktArgCodec.width ∧ Clean markers image := by
  induction schedule generalizing blocks with
  | nil =>
      obtain ⟨thread, image, later, held, _⟩ := opened
      have turns := complete thread
      simp [held] at turns
  | cons thread schedule ih =>
      obtain ⟨block, later, head⟩ := complete.head
      rw [overlay_stream_cons head]
      rcases between thread with boundary | ⟨image, more, held, length, clean⟩
      · rcases boundary with empty | ⟨more, held, next⟩
        · rw [empty] at head
          cases head
        · obtain ⟨rfl, rfl⟩ := List.cons.inj (head.symm.trans held)
          obtain ⟨count, image, tail, stream, length, clean⟩ := ih _ (complete.tail head)
            (by
              intro other
              by_cases same : other = thread
              · subst same
                exact Or.inr (by simpa using next)
              · simpa [same] using between other)
            ⟨thread, by simpa using next⟩
          refine ⟨count + 1, image, tail, ?_, length, clean⟩
          rw [stream, List.replicate_succ, List.flatten_cons, List.append_assoc]
      · obtain ⟨rfl, rfl⟩ := List.cons.inj (head.symm.trans held)
        exact ⟨0, block, _, rfl, length, clean⟩

theorem no_record_after_starts (count : Nat) (image record tail rest : List Byte)
    (clean : Clean markers image) (even : record.length % 2 = 0)
    (short : record.length + 2 ≤ 2 * count + image.length) :
    (List.replicate count bufStart).flatten ++ (image ++ tail) ≠
      record ++ bufEnd ++ rest := by
  intro same
  induction count generalizing record with
  | zero =>
      have inside : record ++ bufEnd <+: image := by
        refine List.prefix_of_prefix_length_le ⟨rest, rfl⟩ ⟨tail, ?_⟩
          (by simpa [bufEnd] using short)
        simpa using same
      exact clean ((List.suffix_append record bufEnd).isInfix.trans inside.isInfix)
  | succ count ih =>
      rcases record with _ | ⟨first, _ | ⟨second, record⟩⟩
      · have second := congrArg (fun stream => stream[1]?) same
        simp [List.replicate_succ, bufStart, bufEnd, markers] at second
        exact absurd second (by decide)
      · simp at even
      · apply ih record
        · simp at even
          omega
        · simp at short
          omega
        · have dropped := congrArg (List.drop 2) same
          simpa [List.replicate_succ, bufStart] using dropped

omit [DecidableEq Thread] in
theorem blocks_at_boundary (args : Thread → List SendpktArg)
    (clean : ∀ thread, ∀ arg ∈ args thread, Clean markers arg.image) (thread : Thread) :
    AtBoundary (sendCalls args thread) := by
  cases held : args thread with
  | nil => exact Or.inl (by simp [sendCalls, expandCalls, held])
  | cons arg later =>
      refine Or.inr ⟨arg.image :: bufEnd :: sendCalls (fun _ : Thread => later) thread, ?_,
        arg.image, _, rfl, sendpkt_image_length arg, clean thread arg (by simp [held])⟩
      simp [sendCalls, expandCalls, held, sendpkt_blocks]

def GotFirst (count : Nat) (stream : List Byte) : Prop :=
  ∃ (values : List SendpktArg) (last : Option SendpktArg), values.length = count ∧
    (calls getpktToSend (count + 1) stream).map Read.value? = values.map some ++ [last]

theorem got_first_succ (count : Nat) (stream : List Byte) (got : GotFirst (count + 1) stream) :
    ∃ value rest, getpktToSend stream = .got value rest ∧ GotFirst count rest := by
  obtain ⟨values, last, length, results⟩ := got
  rw [calls] at results
  cases received : getpktToSend stream with
  | got value rest =>
      refine ⟨value, rest, rfl, values.tail, last, by simp [length], ?_⟩
      cases values with
      | nil => cases length
      | cons first values =>
          simp only [received, List.map_cons, List.cons_append] at results
          exact (List.cons.inj results).2
  | ended => exact absurd (congrArg List.length results) (by simp [received, length])
  | assertionFailed => exact absurd (congrArg List.length results) (by simp [received, length])
  | overrun => exact absurd (congrArg List.length results) (by simp [received, length])

theorem AtBoundary.start {blocks : List (List Byte)} {block : List Byte}
    {later : List (List Byte)} (boundary : AtBoundary blocks) (head : blocks = block :: later) :
    block = bufStart ∧ Opened later := by
  rcases boundary with empty | ⟨more, held, opened⟩
  · cases head.symm.trans empty
  · obtain ⟨rfl, rfl⟩ := List.cons.inj (head.symm.trans held)
    exact ⟨rfl, opened⟩

theorem second_send_same (blocks : Thread → List (List Byte)) (first second : Thread)
    (schedule : List Thread) (complete : IsSchedule blocks (first :: second :: schedule))
    (boundary : ∀ thread, AtBoundary (blocks thread)) (value : SendpktArg) (rest : List Byte)
    (received : getpktToSend (overlayStream blocks (first :: second :: schedule)) =
      .got value rest) : second = first := by
  by_contra apart
  obtain ⟨block, later, head⟩ := complete.head
  obtain ⟨rfl, opened⟩ := (boundary first).start head
  have complete1 := complete.tail head
  obtain ⟨block2, later2, head2⟩ := complete1.head
  have held2 : blocks second = block2 :: later2 := by
    rw [← head2, Function.update_of_ne apart]
  obtain ⟨rfl, opened2⟩ := (boundary second).start held2
  have between (thread : Thread) :
      AtBoundary (Function.update (Function.update blocks first later) second later2 thread) ∨
        Opened (Function.update (Function.update blocks first later) second later2 thread) := by
    by_cases isSecond : thread = second
    · subst isSecond
      exact Or.inr (by simpa using opened2)
    · by_cases isFirst : thread = first
      · subst isFirst
        exact Or.inr (by simpa [isSecond] using opened)
      · exact Or.inl (by simpa [isSecond, isFirst] using boundary thread)
  obtain ⟨count, image, tail, stream, length, clean⟩ :=
    opened_stream _ schedule (complete1.tail head2) between
      ⟨second, by simpa using opened2⟩
  rw [overlay_stream_cons head, overlay_stream_cons head2, stream] at received
  obtain ⟨record, recordLength, _, same⟩ := stream_of_recv_record sendpktArgCodec received
  refine no_record_after_starts (count + 1) image record tail rest clean ?_ ?_ ?_
  · rw [recordLength]
    decide
  · omega
  · simpa [List.replicate_succ] using same

theorem third_send_same (blocks : Thread → List (List Byte)) (first third : Thread)
    (schedule : List Thread) (complete : IsSchedule blocks (first :: first :: third :: schedule))
    (boundary : ∀ thread, AtBoundary (blocks thread)) (value : SendpktArg) (rest : List Byte)
    (received : getpktToSend (overlayStream blocks (first :: first :: third :: schedule)) =
      .got value rest) : third = first := by
  by_contra apart
  obtain ⟨block, later, head⟩ := complete.head
  obtain ⟨rfl, image, later2, rfl, length, _⟩ := (boundary first).start head
  have complete1 := complete.tail head
  have head2 : Function.update blocks first (image :: later2) first = image :: later2 :=
    Function.update_self ..
  have complete2 := complete1.tail head2
  obtain ⟨block3, later3, head3⟩ := complete2.head
  have held3 : blocks third = block3 :: later3 := by
    rw [← head3, Function.update_idem, Function.update_of_ne apart]
  obtain ⟨rfl, _⟩ := (boundary third).start held3
  rw [overlay_stream_cons head, overlay_stream_cons head2, overlay_stream_cons head3] at received
  obtain ⟨record, recordLength, _, same⟩ := stream_of_recv_record sendpktArgCodec received
  rw [List.append_assoc] at same
  obtain ⟨_, markersSame⟩ := List.append_inj same (by rw [length, recordLength])
  have second := congrArg (fun stream => stream[1]?) markersSame
  simp [bufStart, bufEnd, markers] at second
  exact absurd second (by decide)

theorem send_calls_head (args : Thread → List SendpktArg) (thread : Thread) (arg : SendpktArg)
    (later : List SendpktArg) (held : args thread = arg :: later) :
    sendCalls args thread = arg.blocks ++ sendCalls (Function.update args thread later) thread := by
  simp [sendCalls, expandCalls, held]

theorem send_calls_update (args : Thread → List SendpktArg) (thread : Thread)
    (later : List SendpktArg) :
    Function.update (sendCalls args) thread
        (sendCalls (Function.update args thread later) thread) =
      sendCalls (Function.update args thread later) := by
  funext other
  by_cases same : other = thread
  · subst same
    simp
  · simp [sendCalls, expandCalls, same]

theorem together_of_got_first (count : Nat) (args : Thread → List SendpktArg)
    (schedule : List Thread) (clean : ∀ thread, ∀ arg ∈ args thread, Clean markers arg.image)
    (complete : IsSchedule (sendCalls args) schedule) (length : schedule.length = count * 3)
    (got : GotFirst count (overlayStream (sendCalls args) schedule)) :
    SendsTogether schedule := by
  induction count generalizing args schedule with
  | zero => exact ⟨[], by simpa using length⟩
  | succ count ih =>
      obtain ⟨value, rest, received, gotRest⟩ := got_first_succ count _ got
      obtain ⟨first, second, third, more, rfl⟩ : ∃ first second third more,
          schedule = first :: second :: third :: more := by
        rcases schedule with _ | ⟨first, _ | ⟨second, _ | ⟨third, more⟩⟩⟩
        · simp at length
        · simp at length
          omega
        · simp at length
          omega
        · exact ⟨first, second, third, more, rfl⟩
      have boundary := blocks_at_boundary args clean
      obtain rfl := second_send_same _ _ _ _ complete boundary value rest received
      obtain rfl := third_send_same _ _ _ _ complete boundary value rest received
      obtain ⟨arg, later, held⟩ : ∃ arg later, args third = arg :: later := by
        obtain ⟨block, later, head⟩ := complete.head
        cases held : args third with
        | nil => simp [sendCalls, expandCalls, held] at head
        | cons arg later => exact ⟨arg, later, rfl⟩
      have blocks := send_calls_head args third arg later held
      have argClean := clean third arg (by simp [held])
      have completeRest : IsSchedule (sendCalls (Function.update args third later)) more := by
        rw [← send_calls_update]
        exact IsSchedule.drop_replicate _ third arg.blocks _ more complete blocks
      have stream : overlayStream (sendCalls args) (third :: third :: third :: more) =
          recordFrame sendpktArgCodec arg ++
            overlayStream (sendCalls (Function.update args third later)) more := by
        rw [← sendpkt_blocks_flatten, ← send_calls_update]
        exact overlay_stream_replicate _ third arg.blocks _ blocks more
      rw [stream, getpkt_to_send_eq, recv_record_clean sendpktArgCodec arg argClean] at received
      obtain ⟨rfl, rfl⟩ := Read.got.inj received
      obtain ⟨order, rfl⟩ := ih (Function.update args third later) more
        (by
          intro thread item member
          by_cases same : thread = third
          · subst same
            exact clean thread item (by
              rw [Function.update_self] at member
              simp [held, member])
          · exact clean thread item (by rwa [Function.update_of_ne same] at member))
        completeRest (by simp at length; omega) gotRest
      exact ⟨third :: order, rfl⟩

theorem together_of_arrive (args : Thread → List SendpktArg) (schedule : List Thread)
    (clean : ∀ thread, ∀ arg ∈ args thread, Clean markers arg.image)
    (complete : IsSchedule (sendCalls args) schedule) (intact : ArriveIntact args schedule) :
    SendsTogether schedule := by
  obtain ⟨delivered, own, results, _⟩ := intact
  have ordered : IsSchedule args (delivered.map Prod.fst) := by
    intro thread
    rw [← own thread, ownBlocks, List.length_map, List.count, List.countP_map,
      List.countP_eq_length_filter]
    rfl
  have length := schedule_length (by decide) sendpkt_blocks_length schedule complete _ ordered
  apply together_of_got_first delivered.length args schedule clean complete
  · rw [length, List.length_map]
  · refine ⟨delivered.map Prod.snd, none, List.length_map .., ?_⟩
    rw [results, List.map_map]
    rfl

/-- Concurrent packets arrive intact exactly when the three sends of each packet
stay together. -/
theorem arrive_intact_iff (args : Thread → List SendpktArg) (schedule : List Thread)
    (clean : ∀ thread, ∀ arg ∈ args thread, Clean markers arg.image)
    (complete : IsSchedule (sendCalls args) schedule) :
    ArriveIntact args schedule ↔ SendsTogether schedule :=
  ⟨together_of_arrive args schedule clean complete,
    arrive_of_together args schedule clean complete⟩

def clearedArg : SendpktArg := ⟨1, MnpPkt.cleared⟩

theorem cleared_arg_clean : Clean markers clearedArg.image := by
  apply clean_of_no_escape
  change markers.escape ∉ int32Codec.encode 1 ++ MnpPkt.cleared.image
  rw [cleared_image, List.mem_append, List.mem_replicate]
  decide

def twoCalls : MnpThread → List SendpktArg
  | .pkthandler => [clearedArg]
  | .routeupdateDaemon => [clearedArg]
  | .waitTransport => []

theorem two_calls_clean (thread : MnpThread) :
    ∀ arg ∈ twoCalls thread, Clean markers arg.image := by
  cases thread <;> simp [twoCalls, cleared_arg_clean]

theorem two_calls_arrive_in_turn :
    ArriveIntact twoCalls ([.pkthandler, .routeupdateDaemon].flatMap (List.replicate 3)) :=
  (arrive_intact_iff twoCalls _ two_calls_clean
    (by intro thread; cases thread <;> rfl)).mpr ⟨_, rfl⟩

/-- Two threads whose sends alternate: `!&!&` opens the stream and no packet
arrives. -/
theorem alternating_sends_break :
    let schedule : List MnpThread := [.pkthandler, .routeupdateDaemon, .pkthandler,
      .routeupdateDaemon, .pkthandler, .routeupdateDaemon]
    (∀ thread, ∀ arg ∈ twoCalls thread, Clean markers arg.image) ∧
      IsSchedule (sendCalls twoCalls) schedule ∧ ¬ ArriveIntact twoCalls schedule := by
  intro schedule
  have complete : IsSchedule (sendCalls twoCalls) schedule := by
    intro thread
    cases thread <;> rfl
  refine ⟨two_calls_clean, complete, fun intact => ?_⟩
  obtain ⟨order, apart⟩ := together_of_arrive twoCalls schedule two_calls_clean complete intact
  cases order with
  | nil => simp [schedule] at apart
  | cons thread order =>
      rw [List.flatMap_cons] at apart
      simp only [schedule, List.replicate_succ, List.cons_append, List.cons.injEq] at apart
      exact MnpThread.noConfusion (apart.1.trans apart.2.1.symm)

end MiniOverlay
