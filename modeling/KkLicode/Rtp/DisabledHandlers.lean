import KkLicode.Base.Passing
import KkLicode.Rtp.LayerBitrateCalculationHandler
import KkLicode.Rtp.PliPacerHandler
import KkLicode.Rtp.QualityFilterHandler
import KkLicode.Rtp.RtpPaddingRemovalHandler
import KkLicode.Rtp.RtpRetransmissionHandler

/-! Handlers that are disabled. Of a pipeline a handler sees the packets that go
through it in both directions; what a disabled one does with them is stated alike
for all of them. What else happens to a handler, such as a task that runs, is an
event of its own kind. -/

namespace KkLicode.Rtp

open Base

/-- A packet of a stream: an RTCP packet, or any other one. -/
inductive StreamPacket (R : Type) where
  | rtcp (packet : R)
  | data (packet : DataPacket)
  deriving DecidableEq, Repr

/-- What a handler is called with, but for `enable`. -/
inductive DisabledCall (P E : Type) where
  | read (packet : P)
  | write (packet : P)
  | disable
  | other (event : E)

/-- A handler with what it works on. There is no output where the behaviour is undefined. -/
structure Handler where
  State : Type
  Packet : Type
  Event : Type
  disable : State → State
  read : State → Packet → State × Option (List (Fired Packet))
  write : State → Packet → State × Option (List (Fired Packet))
  other : State → Event → State × Option (List (Fired Packet))

/-- The packet that a call brings, on its way. -/
def DisabledCall.given {P E : Type} : DisabledCall P E → List (Fired P)
  | read packet => [.read packet]
  | write packet => [.write .source packet]
  | disable => []
  | other _ => []

/-- Packets that a handler made itself are not of the stream. -/
def Fired.ofStream {P : Type} : Fired P → Bool
  | write .own _ => false
  | _ => true

namespace Handler

variable (h : Handler)

def call (s : h.State) : DisabledCall h.Packet h.Event → h.State × Option (List (Fired h.Packet))
  | .read packet => h.read s packet
  | .write packet => h.write s packet
  | .disable => (h.disable s, some [])
  | .other event => h.other s event

/-- A call, with what comes out of the stream. -/
def step (s : h.State) (c : DisabledCall h.Packet h.Event) :
    h.State × Option (List (Fired h.Packet)) :=
  ((h.call s c).1, (h.call s c).2.map (·.filter Fired.ofStream))

/-- From `disable` on each packet is passed on once, in order and as it is. -/
def Transparent (s : h.State) (calls : List (DisabledCall h.Packet h.Event)) : Prop :=
  Passing.Transparent h.step DisabledCall.given (h.disable s) calls

variable {h} {Off : h.State → Prop}

/-- If a disabled handler passes on the packets of the good calls, and loses those of the others, it is
transparent where all calls are good. -/
theorem transparent_iff {good : h.State → DisabledCall h.Packet h.Event → Prop}
    (hoff : ∀ s, Off (h.disable s)) (hkeep : ∀ s c, Off s → Off (h.call s c).1)
    (hgood : ∀ s c, Off s → good s c → (h.step s c).2 = some c.given)
    (hbad : ∀ s c, Off s → ¬good s c →
      (h.step s c).2 = none ∨ ((h.step s c).2 = some [] ∧ c.given ≠ []))
    (s : h.State) (calls : List (DisabledCall h.Packet h.Event)) :
    h.Transparent s calls ↔ Runs.Steps h.step good (h.disable s) calls := by
  have hless : ∀ s c, Off s → True → ∀ out, (h.step s c).2 = some out →
      out.length ≤ c.given.length := by
    intro s c hs _ out hout
    by_cases hc : good s c
    · rw [Option.some.inj (hout.symm.trans (hgood s c hs hc))]
    · rcases hbad s c hs hc with hnone | ⟨hnil, -⟩
      · rw [hnone] at hout
        cases hout
      · rw [Option.some.inj (hout.symm.trans hnil)]
        exact Nat.zero_le _
  have hthrough : ∀ s c, Off s → (Passing.Through h.step DisabledCall.given s c ↔ good s c) := by
    refine fun s c hs => ⟨fun h => ?_, hgood s c hs⟩
    by_contra hc
    rcases hbad s c hs hc with hnone | ⟨hnil, hgiven⟩
    · exact Option.some_ne_none _ (h.symm.trans hnone)
    · exact hgiven (Option.some.inj (h.symm.trans hnil))
  have hkeep' : ∀ s c, Off s → True → Off (h.step s c).1 := fun s c hs _ => hkeep s c hs
  exact (Passing.transparent_iff hkeep' hless (hoff s) fun _ _ => trivial).trans
    (Runs.Steps.iff_of_invariant hkeep' hthrough (hoff s) (Runs.steps_true _ calls))

theorem transparent_of_through (hoff : ∀ s, Off (h.disable s))
    (hcall : ∀ s c, Off s → Off (h.call s c).1 ∧ (h.step s c).2 = some c.given) (s : h.State)
    (calls : List (DisabledCall h.Packet h.Event)) : h.Transparent s calls :=
  (transparent_iff hoff (fun s c hs => (hcall s c hs).1) (fun s c hs _ => (hcall s c hs).2)
    (fun _ _ _ hc => absurd trivial hc) s calls).mpr (Runs.steps_true _ calls)

/-- The call as it is passed on, if no packet is made up. -/
theorem step_of_call {s s' : h.State} {c : DisabledCall h.Packet h.Event}
    (hcall : h.call s c = (s', some c.given)) : (h.step s c).2 = some c.given := by
  rw [step, hcall]
  cases c <;> rfl

end Handler

/-! ### `RtpPaddingRemovalHandler` -/

namespace RtpPaddingRemovalHandler

/-- A packet with another length. -/
def cut (packet : DataPacket) (length : ℤ) : DataPacket :=
  { packet with payload := packet.payload.take (length - packet.header.headerLength).toNat }

theorem cut_length (packet : DataPacket) : cut packet packet.length = packet := by
  have hlength : ((packet.length : ℤ) - packet.header.headerLength).toNat = packet.payload.length := by
    rw [DataPacket.length]
    omega
  rw [cut, hlength, List.take_length]

variable {h : RtpPaddingRemovalHandler} (hoff : h.enabled = false)

include hoff

theorem read_of_disabled (packet : DataPacket) :
    h.read packet = (h, some (packet, (packet.length : ℤ))) := by
  unfold read
  rw [hoff, Bool.and_false, if_neg Bool.false_ne_true]

theorem write_of_disabled (packet : RtcpPacket) : h.write packet = some packet := by
  unfold write
  rw [hoff]
  rfl

end RtpPaddingRemovalHandler

def Handler.rtpPaddingRemoval : Handler where
  State := RtpPaddingRemovalHandler
  Packet := StreamPacket RtcpPacket
  Event := Empty
  disable h := { h with enabled := false }
  read h
    | .rtcp packet => (h, some [.read (.rtcp packet)])
    | .data packet =>
      let r := h.read packet
      (r.1, some (r.2.toList.map fun out => .read (.data (RtpPaddingRemovalHandler.cut out.1 out.2))))
  write h
    | .rtcp packet => (h, (h.write packet).map fun packet => [.write .source (.rtcp packet)])
    | .data packet => (h, some [.write .source (.data packet)])
  other h _ := (h, some [])

theorem RtpPaddingRemovalHandler.call_of_disabled {h : RtpPaddingRemovalHandler}
    (hoff : h.enabled = false)
    (c : DisabledCall Handler.rtpPaddingRemoval.Packet Handler.rtpPaddingRemoval.Event) :
    Handler.rtpPaddingRemoval.call h c = (h, some c.given) := by
  rcases c with (packet | packet) | (packet | packet) | _ | event
  · rfl
  · show (_, _) = _
    rw [read_of_disabled hoff]
    simp only [Option.toList_some, List.map_cons, List.map_nil, cut_length]
    rfl
  · show (_, _) = _
    rw [write_of_disabled hoff]
    rfl
  · rfl
  · cases h
    simp only at hoff
    rw [hoff]
    rfl
  · rfl

theorem Handler.transparent_rtpPaddingRemoval (s : rtpPaddingRemoval.State)
    (calls : List (DisabledCall rtpPaddingRemoval.Packet rtpPaddingRemoval.Event)) :
    rtpPaddingRemoval.Transparent s calls := by
  refine @transparent_of_through rtpPaddingRemoval (fun h => h.enabled = false) (fun _ => rfl)
    (fun s c hs => ?_) s calls
  have hcall := RtpPaddingRemovalHandler.call_of_disabled hs c
  exact ⟨by rw [hcall]; exact hs, step_of_call hcall⟩

/-! ### `PliPacerHandler` -/

/-- The worker gets to a task, or time passes. -/
inductive PliPacerEvent where
  | run (id : ℕ) (reserved : Reserved)
  | pass (elapsed : ℕ)

def Handler.pliPacer : Handler where
  State := PliPacer
  Packet := MediaPacket
  Event := PliPacerEvent
  disable s := (s.call .disable).1
  read s packet := ((s.read packet).1, some (s.read packet).2)
  write s packet := ((s.write packet).1, some (s.write packet).2)
  other s
    | .run id reserved => ((s.run id reserved).1, some (s.run id reserved).2)
    | .pass elapsed => (s.pass elapsed, some [])

namespace PliPacer

variable {s : PliPacer}

theorem enabled_scheduleNextPLI (s : PliPacer) :
    s.scheduleNextPLI.handler.enabled = s.handler.enabled := by
  unfold scheduleNextPLI
  split_ifs <;> rfl

theorem retry_ofStream (s : PliPacer) (reserved : Reserved) :
    (s.retry reserved).1.handler.enabled = s.handler.enabled ∧
      (s.retry reserved).2.filter Fired.ofStream = [] := by
  unfold retry
  split_ifs
  · exact ⟨rfl, rfl⟩
  · exact ⟨s.enabled_scheduleNextPLI, rfl⟩

/-- What a task writes is the handler's own. -/
theorem run_ofStream (s : PliPacer) (id : ℕ) (reserved : Reserved) :
    (s.run id reserved).1.handler.enabled = s.handler.enabled ∧
      (s.run id reserved).2.filter Fired.ofStream = [] := by
  unfold run
  dsimp only
  split_ifs
  · exact ⟨rfl, rfl⟩
  · exact retry_ofStream _ reserved
  · exact ⟨rfl, rfl⟩

variable (hoff : s.handler.enabled = false) (packet : MediaPacket)

include hoff

theorem read_of_disabled : s.read packet = (s, [.read packet]) := by
  unfold read
  rw [hoff]
  rfl

theorem write_of_disabled : s.write packet = (s, [.write .source packet]) := by
  unfold write
  rw [hoff]
  rfl

end PliPacer

theorem Handler.transparent_pliPacer (s : pliPacer.State)
    (calls : List (DisabledCall pliPacer.Packet pliPacer.Event)) : pliPacer.Transparent s calls := by
  refine @transparent_of_through pliPacer (fun s => s.handler.enabled = false) (fun _ => rfl)
    (fun s c hs => ?_) s calls
  rcases c with packet | packet | _ | (⟨id, reserved⟩ | elapsed)
  · have hread := PliPacer.read_of_disabled hs packet
    refine ⟨(congrArg (fun r => r.1.handler.enabled) hread).trans hs, ?_⟩
    exact congrArg (fun r => some (r.2.filter Fired.ofStream)) hread
  · have hwrite := PliPacer.write_of_disabled hs packet
    refine ⟨(congrArg (fun r => r.1.handler.enabled) hwrite).trans hs, ?_⟩
    exact congrArg (fun r => some (r.2.filter Fired.ofStream)) hwrite
  · exact ⟨rfl, rfl⟩
  · obtain ⟨henabled, hown⟩ := PliPacer.run_ofStream s id reserved
    exact ⟨henabled.trans hs, congrArg some hown⟩
  · exact ⟨hs, rfl⟩

/-! ### `LayerBitrateCalculationHandler` -/

/-- The handler with the quality manager and the clock. -/
structure LayerBitrates (Q : Type) where
  handler : LayerBitrateCalculationHandler
  qualityManager : Q
  nowMs : UInt64

/-- `notifyUpdate` finds the services or does not. -/
inductive LayerBitrateEvent where
  | notifyUpdate (found : Bool)
  | pass (elapsedMs : UInt64)

/-- The handler is outbound: what is read does not come through it. An RTCP packet has no layers. -/
def Handler.layerBitrateCalculation {Q : Type} (notifyQualityUpdate : Q → Q) : Handler where
  State := LayerBitrates Q
  Packet := StreamPacket MediaPacket
  Event := LayerBitrateEvent
  disable s := { s with handler := { s.handler with enabled := false } }
  read s packet := (s, some [.read packet])
  write s
    | .rtcp packet =>
      let notified := s.handler.enabled && s.handler.initialized
      ({ s with qualityManager :=
          if notified then notifyQualityUpdate s.qualityManager else s.qualityManager },
        some [.write .source (.rtcp packet)])
    | .data packet =>
      let (handler, qualityManager, actions) :=
        s.handler.write notifyQualityUpdate s.qualityManager s.nowMs packet
      ({ s with handler := handler, qualityManager := qualityManager },
        some ((written actions).map fun packet => .write .source (.data packet)))
  other s
    | .notifyUpdate found =>
      ({ s with handler := { s.handler with initialized := s.handler.initialized || found } }, some [])
    | .pass elapsedMs => ({ s with nowMs := s.nowMs + elapsedMs }, some [])

theorem Handler.transparent_layerBitrateCalculation {Q : Type} (notifyQualityUpdate : Q → Q)
    (s : (layerBitrateCalculation notifyQualityUpdate).State)
    (calls : List (DisabledCall (layerBitrateCalculation notifyQualityUpdate).Packet
      (layerBitrateCalculation notifyQualityUpdate).Event)) :
    (layerBitrateCalculation notifyQualityUpdate).Transparent s calls := by
  refine @transparent_of_through (layerBitrateCalculation notifyQualityUpdate)
    (fun s => s.handler.enabled = false) (fun _ => rfl) (fun s c hs => ?_) s calls
  rcases c with packet | (packet | packet) | _ | event
  · exact ⟨hs, rfl⟩
  · exact ⟨hs, rfl⟩
  · have hwrite : s.handler.write notifyQualityUpdate s.qualityManager s.nowMs packet =
        (s.handler, s.qualityManager, [.write packet]) := by
      unfold LayerBitrateCalculationHandler.write
      rw [hs]
      rfl
    refine ⟨(congrArg (fun r => r.1.enabled) hwrite).trans hs, ?_⟩
    exact congrArg (fun r => some (((written r.2.2).map fun packet =>
      Fired.write .source (StreamPacket.data packet)).filter Fired.ofStream)) hwrite
  · exact ⟨rfl, rfl⟩
  · cases event with
    | notifyUpdate found => exact ⟨hs, rfl⟩
    | pass elapsedMs => exact ⟨hs, rfl⟩

/-! ### `QualityFilterHandler` -/

/-- The handler with whether it has found a quality manager, and what it reads from there and from the
clock. -/
structure QualityFilter where
  handler : QualityFilterHandler
  qualityManager : Bool := false
  reading : Reading := {}

inductive QualityFilterEvent where
  | notifyUpdate (videoSinkSSRC videoSourceSSRC : UInt32) (found : Bool)
  | reading (r : Reading)

namespace QualityFilterHandler

/-- The packet is the first one of a second layer. -/
def Detects (h : QualityFilterHandler) (packet : DataPacket) : Prop :=
  h.isScalable = false ∧ packet.type = .video ∧
    (packet.belongsToTemporalLayer 1 || packet.belongsToSpatialLayer 1) = true

instance (h : QualityFilterHandler) (packet : DataPacket) : Decidable (h.Detects packet) :=
  inferInstanceAs (Decidable (_ ∧ _))

/-- The packet goes through the filter. -/
def Filters (h : QualityFilterHandler) (packet : DataPacket) : Prop :=
  (h.detectVideoScalability packet).isScalable = true ∧ packet.rtcp = false ∧ h.enabled = true ∧
    packet.type = .video

instance (h : QualityFilterHandler) (packet : DataPacket) : Decidable (h.Filters packet) :=
  inferInstanceAs (Decidable (_ ∧ _))

theorem enabled_detectVideoScalability (h : QualityFilterHandler) (packet : DataPacket) :
    (h.detectVideoScalability packet).enabled = h.enabled := by
  unfold detectVideoScalability
  split_ifs <;> rfl

variable {h : QualityFilterHandler} (hoff : h.enabled = false)

include hoff

theorem read_of_disabled (packet : MediaPacket) : h.read packet = [.read packet] := by
  unfold read
  rw [if_neg fun hon => by simp [hoff] at hon]

theorem write_of_disabled (r : Reading) (packet : DataPacket) :
    h.write r packet = (h.detectVideoScalability packet, [.write packet]) := by
  unfold write
  dsimp only
  rw [enabled_detectVideoScalability, hoff, Bool.and_false, Bool.false_and, if_neg Bool.false_ne_true]

end QualityFilterHandler

/-- What an action is to the neighbours. -/
def Action.fired : Action → Fired (StreamPacket MediaPacket)
  | .readPLI sinkSSRC sourceSSRC => .read (.rtcp (RtpUtils.createPLI sinkSSRC sourceSSRC))
  | .read packet => .read (.data packet)
  | .write packet => .write .source (.data packet)

def Fired.rtcp : Fired MediaPacket → Fired (StreamPacket MediaPacket)
  | .read packet => .read (.rtcp packet)
  | .write origin packet => .write origin (.rtcp packet)

/-- Without a quality manager a call of it is undefined. -/
def QualityFilter.write (s : QualityFilter) (packet : DataPacket) :
    QualityFilter × Option (List (Fired (StreamPacket MediaPacket))) :=
  if (s.handler.Detects packet ∨ s.handler.Filters packet) ∧ s.qualityManager = false then (s, none)
  else
    let (handler, actions) := s.handler.write s.reading packet
    ({ s with handler := handler }, some (actions.map Action.fired))

def QualityFilter.notifyUpdate (s : QualityFilter) (videoSinkSSRC videoSourceSSRC : UInt32)
    (found : Bool) : QualityFilter :=
  if s.handler.initialized then s
  else { s with
    handler := s.handler.notifyUpdate videoSinkSSRC videoSourceSSRC, qualityManager := found }

def Handler.qualityFilter : Handler where
  State := QualityFilter
  Packet := StreamPacket MediaPacket
  Event := QualityFilterEvent
  disable s := { s with handler := s.handler.disable }
  read s
    | .rtcp packet => (s, some ((s.handler.read packet).map Fired.rtcp))
    | .data packet => (s, some [.read (.data packet)])
  write s
    | .rtcp packet => (s, some [.write .source (.rtcp packet)])
    | .data packet => s.write packet
  other s
    | .notifyUpdate videoSinkSSRC videoSourceSSRC found =>
      (s.notifyUpdate videoSinkSSRC videoSourceSSRC found, some [])
    | .reading r => ({ s with reading := r }, some [])

/-- The handler does not need a quality manager, or has one. -/
def QualityFilter.Served (s : QualityFilter) :
    DisabledCall (StreamPacket MediaPacket) QualityFilterEvent → Prop
  | .write (.data packet) => s.handler.Detects packet → s.qualityManager = true
  | _ => True

namespace QualityFilter

variable {s : QualityFilter} (hoff : s.handler.enabled = false)

include hoff

theorem write_of_disabled (packet : DataPacket) :
    s.write packet =
      if s.handler.Detects packet ∧ s.qualityManager = false then (s, none)
      else ({ s with handler := s.handler.detectVideoScalability packet },
        some [.write .source (.data packet)]) := by
  have hfilters : ¬s.handler.Filters packet := by
    rintro ⟨-, -, hon, -⟩
    exact absurd (hoff.symm.trans hon) Bool.false_ne_true
  unfold write
  rw [QualityFilterHandler.write_of_disabled hoff]
  simp only [hfilters, or_false]
  rfl

omit hoff

theorem enabled_notifyUpdate (videoSinkSSRC videoSourceSSRC : UInt32) (found : Bool) :
    (s.notifyUpdate videoSinkSSRC videoSourceSSRC found).handler.enabled = s.handler.enabled := by
  unfold notifyUpdate QualityFilterHandler.notifyUpdate
  split_ifs <;> rfl

end QualityFilter

/-- A call of a disabled filter leaves it disabled; it passes its packet on, or is undefined. -/
theorem Handler.qualityFilter_call {s : qualityFilter.State} (hoff : s.handler.enabled = false)
    (c : DisabledCall qualityFilter.Packet qualityFilter.Event) :
    (qualityFilter.call s c).1.handler.enabled = false ∧
      (s.Served c → (qualityFilter.step s c).2 = some c.given) ∧
        (¬s.Served c → (qualityFilter.step s c).2 = none) := by
  rcases c with (packet | packet) | (packet | packet) | _ | (⟨videoSinkSSRC, videoSourceSSRC, found⟩ | r)
  · refine ⟨hoff, fun _ => ?_, fun h => absurd trivial h⟩
    have hread := QualityFilterHandler.read_of_disabled hoff packet
    exact congrArg (fun l => some ((l.map Fired.rtcp).filter Fired.ofStream)) hread
  · exact ⟨hoff, fun _ => rfl, fun h => absurd trivial h⟩
  · exact ⟨hoff, fun _ => rfl, fun h => absurd trivial h⟩
  · have hwrite := QualityFilter.write_of_disabled hoff packet
    by_cases hundefined : s.handler.Detects packet ∧ s.qualityManager = false
    · rw [if_pos hundefined] at hwrite
      refine ⟨(congrArg (fun r => r.1.handler.enabled) hwrite).trans hoff, fun h => ?_, fun _ => ?_⟩
      · exact absurd (hundefined.2.symm.trans (h hundefined.1)) Bool.false_ne_true
      · exact congrArg (fun r => r.2.map (·.filter Fired.ofStream)) hwrite
    · rw [if_neg hundefined] at hwrite
      refine ⟨?_, fun _ => ?_, fun h => absurd (fun hd => ?_) h⟩
      · exact (congrArg (fun r => r.1.handler.enabled) hwrite).trans
          ((QualityFilterHandler.enabled_detectVideoScalability s.handler packet).trans hoff)
      · exact congrArg (fun r => r.2.map (·.filter Fired.ofStream)) hwrite
      · exact Bool.eq_true_of_not_eq_false fun hnone => hundefined ⟨hd, hnone⟩
  · exact ⟨rfl, fun _ => rfl, fun h => absurd trivial h⟩
  · refine ⟨?_, fun _ => rfl, fun h => absurd trivial h⟩
    exact (QualityFilter.enabled_notifyUpdate videoSinkSSRC videoSourceSSRC found).trans hoff
  · exact ⟨hoff, fun _ => rfl, fun h => absurd trivial h⟩

theorem Handler.transparent_qualityFilter_iff (s : qualityFilter.State)
    (calls : List (DisabledCall qualityFilter.Packet qualityFilter.Event)) :
    qualityFilter.Transparent s calls ↔
      Runs.Steps qualityFilter.step QualityFilter.Served (qualityFilter.disable s) calls :=
  @transparent_iff qualityFilter (fun s => s.handler.enabled = false) QualityFilter.Served
    (fun _ => rfl) (fun _ c hs => (qualityFilter_call hs c).1)
    (fun _ c hs => (qualityFilter_call hs c).2.1)
    (fun _ c hs hc => .inl ((qualityFilter_call hs c).2.2 hc)) s calls

/-! ### `RtpRetransmissionHandler` -/

namespace RtpRetransmissionHandler

variable {D : Type} (ctx : Context D) (s : Stage RtpRetransmissionHandler D)

theorem write_of_initialized (hinit : s.handler.initialized = true) (ref : ℕ) :
    (write ctx s ref).handler.enabled = s.handler.enabled ∧
      (write ctx s ref).next = (ctx s.next s.packets .source ref).1 := by
  unfold write
  dsimp only
  rw [hinit, Bool.not_true, if_neg Bool.false_ne_true]
  split_ifs <;> exact ⟨rfl, rfl⟩

theorem write_of_not_initialized (hinit : s.handler.initialized = false) (ref : ℕ) :
    write ctx s ref = s := by
  unfold write
  dsimp only
  rw [hinit, Bool.not_false, if_pos rfl]

end RtpRetransmissionHandler

/-- The handler at work, with the numbers of the connection and what it reads from the clocks. -/
structure RtpRetransmission where
  stage : Stage RtpRetransmissionHandler (List (Fired (StreamPacket RtcpPacket)))
  ssrc : SinkSSRC
  reading : RetransmissionReading := {}

/-- `notifyUpdate` finds the connection and the services or does not. -/
inductive RtpRetransmissionEvent where
  | notifyUpdate (found : Bool)
  | reading (r : RetransmissionReading)

namespace RtpRetransmission

/-- The neighbours, of which only what they are handed is seen. -/
def neighbours : Context (List (Fired (StreamPacket RtcpPacket))) := fun out packets origin ref =>
  (out ++ [.write origin (.data (packets.packet ref))], packets)

variable (s : RtpRetransmission)

/-- Before a call nothing has been handed to the neighbours. -/
def stageOf (packets : Packets) :
    Stage RtpRetransmissionHandler (List (Fired (StreamPacket RtcpPacket))) :=
  { s.stage with next := [], packets := packets }

def readRtcp (packet : RtcpPacket) :
    RtpRetransmission × Option (List (Fired (StreamPacket RtcpPacket))) :=
  let (stage, passed) := RtpRetransmissionHandler.read neighbours s.ssrc (s.stageOf s.stage.packets)
    s.reading packet
  ({ s with stage := stage }, some (stage.next ++ if passed then [.read (.rtcp packet)] else []))

/-- In other packets there is no feedback. -/
def readData (packet : DataPacket) :
    RtpRetransmission × Option (List (Fired (StreamPacket RtcpPacket))) :=
  if !s.stage.handler.enabled || !s.stage.handler.initialized then (s, some [])
  else
    ({ s with stage := s.stage.setHandler (s.stage.handler.calculateRtxBitrate s.reading) },
      some [.read (.data packet)])

/-- RTCP packets are not kept. -/
def writeRtcp (packet : RtcpPacket) :
    RtpRetransmission × Option (List (Fired (StreamPacket RtcpPacket))) :=
  (s, some (if s.stage.handler.initialized then [.write .source (.rtcp packet)] else []))

def writeData (packet : DataPacket) :
    RtpRetransmission × Option (List (Fired (StreamPacket RtcpPacket))) :=
  let (packets, ref) := s.stage.packets.alloc packet
  let stage := RtpRetransmissionHandler.write neighbours (s.stageOf packets) ref
  ({ s with stage := stage }, some stage.next)

end RtpRetransmission

def Handler.rtpRetransmission : Handler where
  State := RtpRetransmission
  Packet := StreamPacket RtcpPacket
  Event := RtpRetransmissionEvent
  disable s := { s with stage := s.stage.setHandler { s.stage.handler with enabled := false } }
  read s
    | .rtcp packet => s.readRtcp packet
    | .data packet => s.readData packet
  write s
    | .rtcp packet => s.writeRtcp packet
    | .data packet => s.writeData packet
  other s
    | .notifyUpdate found =>
      let initialized := s.stage.handler.initialized || found
      ({ s with stage := s.stage.setHandler { s.stage.handler with initialized := initialized } },
        some [])
    | .reading r => ({ s with reading := r }, some [])

/-- Nothing is read, and what is written comes after the initialization. -/
def RtpRetransmission.OnlyWritten (s : RtpRetransmission) :
    DisabledCall (StreamPacket RtcpPacket) RtpRetransmissionEvent → Prop
  | .read _ => False
  | .write _ => s.stage.handler.initialized = true
  | _ => True

namespace RtpRetransmission

variable {s : RtpRetransmission} (hoff : s.stage.handler.enabled = false)

include hoff

theorem readRtcp_of_disabled (packet : RtcpPacket) :
    s.readRtcp packet = ({ s with stage := s.stageOf s.stage.packets }, some []) := by
  have hdropped : RtpRetransmissionHandler.read neighbours s.ssrc (s.stageOf s.stage.packets) s.reading
      packet = (s.stageOf s.stage.packets, false) := by
    unfold RtpRetransmissionHandler.read
    exact if_pos (by simp [stageOf, hoff])
  unfold readRtcp
  rw [hdropped]
  rfl

theorem readData_of_disabled (packet : DataPacket) : s.readData packet = (s, some []) := by
  unfold readData
  rw [hoff]
  rfl

omit hoff

theorem writeData_of_initialized (hinit : s.stage.handler.initialized = true) (packet : DataPacket) :
    (s.writeData packet).1.stage.handler.enabled = s.stage.handler.enabled ∧
      (s.writeData packet).2 = some [.write .source (.data packet)] := by
  have hpacket := s.stage.packets.alloc_packet packet
  obtain ⟨hsame, hnext⟩ := RtpRetransmissionHandler.write_of_initialized neighbours
    (s.stageOf (s.stage.packets.alloc packet).1) hinit (s.stage.packets.alloc packet).2
  refine ⟨hsame, (congrArg some hnext).trans ?_⟩
  exact congrArg (fun p => some [Fired.write .source (StreamPacket.data p)]) hpacket

theorem writeData_of_not_initialized (hinit : s.stage.handler.initialized = false)
    (packet : DataPacket) :
    (s.writeData packet).1.stage.handler.enabled = s.stage.handler.enabled ∧
      (s.writeData packet).2 = some [] := by
  have hwrite := RtpRetransmissionHandler.write_of_not_initialized neighbours
    (s.stageOf (s.stage.packets.alloc packet).1) hinit (s.stage.packets.alloc packet).2
  unfold writeData
  dsimp only
  rw [hwrite]
  exact ⟨rfl, rfl⟩

end RtpRetransmission

/-- A call of a disabled handler leaves it disabled; it passes its packet on, or loses it. -/
theorem Handler.rtpRetransmission_call {s : rtpRetransmission.State}
    (hoff : s.stage.handler.enabled = false)
    (c : DisabledCall rtpRetransmission.Packet rtpRetransmission.Event) :
    (rtpRetransmission.call s c).1.stage.handler.enabled = false ∧
      (s.OnlyWritten c → (rtpRetransmission.step s c).2 = some c.given) ∧
        (¬s.OnlyWritten c → (rtpRetransmission.step s c).2 = some [] ∧ c.given ≠ []) := by
  rcases c with (packet | packet) | (packet | packet) | _ | (found | r)
  · have hread := RtpRetransmission.readRtcp_of_disabled hoff packet
    refine ⟨(congrArg (fun r => r.1.stage.handler.enabled) hread).trans hoff, fun h => h.elim,
      fun _ => ⟨congrArg (fun r => r.2.map (·.filter Fired.ofStream)) hread, List.cons_ne_nil _ _⟩⟩
  · have hread := RtpRetransmission.readData_of_disabled hoff packet
    refine ⟨(congrArg (fun r => r.1.stage.handler.enabled) hread).trans hoff, fun h => h.elim,
      fun _ => ⟨congrArg (fun r => r.2.map (·.filter Fired.ofStream)) hread, List.cons_ne_nil _ _⟩⟩
  · refine ⟨hoff, fun h => ?_, fun h => ⟨?_, List.cons_ne_nil _ _⟩⟩
    · exact congrArg (fun l : List _ => some (l.filter Fired.ofStream)) (if_pos h)
    · exact congrArg (fun l : List _ => some (l.filter Fired.ofStream)) (if_neg h)
  · cases hinit : s.stage.handler.initialized with
    | true =>
      obtain ⟨hsame, hwrite⟩ := RtpRetransmission.writeData_of_initialized hinit packet
      exact ⟨hsame.trans hoff, fun _ => congrArg (·.map (·.filter Fired.ofStream)) hwrite,
        fun h => absurd hinit h⟩
    | false =>
      obtain ⟨hsame, hwrite⟩ := RtpRetransmission.writeData_of_not_initialized hinit packet
      exact ⟨hsame.trans hoff, fun h => absurd (hinit.symm.trans h) Bool.false_ne_true,
        fun _ => ⟨congrArg (·.map (·.filter Fired.ofStream)) hwrite, List.cons_ne_nil _ _⟩⟩
  · exact ⟨rfl, fun _ => rfl, fun h => absurd trivial h⟩
  · exact ⟨hoff, fun _ => rfl, fun h => absurd trivial h⟩
  · exact ⟨hoff, fun _ => rfl, fun h => absurd trivial h⟩

theorem Handler.transparent_rtpRetransmission_iff (s : rtpRetransmission.State)
    (calls : List (DisabledCall rtpRetransmission.Packet rtpRetransmission.Event)) :
    rtpRetransmission.Transparent s calls ↔
      Runs.Steps rtpRetransmission.step RtpRetransmission.OnlyWritten (rtpRetransmission.disable s)
        calls :=
  @transparent_iff rtpRetransmission (fun s => s.stage.handler.enabled = false)
    RtpRetransmission.OnlyWritten (fun _ => rfl) (fun _ c hs => (rtpRetransmission_call hs c).1)
    (fun _ c hs => (rtpRetransmission_call hs c).2.1)
    (fun _ c hs hc => .inr ((rtpRetransmission_call hs c).2.2 hc)) s calls

namespace Handler

/-- Of the handlers three are transparent, the quality filter is where it does not need a quality
manager that is not there, and the retransmission handler loses all that is read. -/
theorem disabled_transparent_iff {Q : Type} (notifyQualityUpdate : Q → Q) :
    (∀ s calls, rtpPaddingRemoval.Transparent s calls) ∧ (∀ s calls, pliPacer.Transparent s calls) ∧
      (∀ s calls, (layerBitrateCalculation notifyQualityUpdate).Transparent s calls) ∧
      (∀ s calls, qualityFilter.Transparent s calls ↔
        Runs.Steps qualityFilter.step QualityFilter.Served (qualityFilter.disable s) calls) ∧
      ∀ s calls, rtpRetransmission.Transparent s calls ↔
        Runs.Steps rtpRetransmission.step RtpRetransmission.OnlyWritten (rtpRetransmission.disable s)
          calls :=
  ⟨transparent_rtpPaddingRemoval, transparent_pliPacer,
    transparent_layerBitrateCalculation notifyQualityUpdate, transparent_qualityFilter_iff,
    transparent_rtpRetransmission_iff⟩

/-- A report that is read while the handler is disabled is lost. -/
theorem not_disabled_transparent : ¬∀ s calls, rtpRetransmission.Transparent s calls := by
  intro h
  have hsteps := (transparent_rtpRetransmission_iff _ _).mp
    (h ⟨⟨{ initialized := true }, [], {}⟩, ⟨7, 8⟩, {}⟩
      [.read (.rtcp { first := { packettype := RTCP_Receiver_PT } })])
  exact hsteps.1

end Handler

end KkLicode.Rtp
