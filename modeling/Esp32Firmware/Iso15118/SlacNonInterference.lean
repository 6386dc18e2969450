import Esp32Firmware.Iso15118.SlacCrosstalk

/-!
# Runs with frames of other vehicles

What SLAC lets others see in a run with frames of other vehicles added is what it lets them see
without these frames.

## Implementation notes

An added frame is either read on its own or waits in the tap together with other frames when a
timeout has elapsed. The conditions on it are read in the run in which it is added.
-/

namespace Esp32Firmware.Iso15118

namespace Slac

/-- What is seen of SLAC: the calls it makes, and its state after a change. The buffer, the count
of sounds and the log are not seen. -/
inductive Observation where
  | call (action : SlacAction)
  | changed (s : Slac)
deriving DecidableEq

def observedStep (sha256 : List UInt8 → List UInt8) (s : Slac) (event : Event) :
    Slac × List Observation :=
  ((s.step sha256 event).1, (s.step sha256 event).2.map .call ++
    if (s.step sha256 event).1.erase = s.erase then []
    else [.changed (s.step sha256 event).1.erase])

/-- A frame of another vehicle in the session of the vehicle -/
structure Foreign (vehicle : List UInt8) (allowed : Slac → List UInt8 → Prop) (s : Slac)
    (frame : List UInt8) : Prop where
  inSession : InSession vehicle s
  isForeign : isForeign vehicle frame = true
  allowed : allowed s frame

/-- One read of `drain_tap` -/
def drainStep (now : Nat) (config : SlacConfig) (s : Slac) (frame : List UInt8) : Reply :=
  s.readAndDispatchTapFrame now config frame

/-- The state in which a pass of the main loop looks at the timeout -/
def beforeTimeouts (sha256 : List UInt8 → List UInt8) (inputs : SlacInputs) (s : Slac) : Slac :=
  let s := (s.observe inputs).1
  let s := ((s.startSlacInit inputs).abortSlacInit inputs).1
  ((s.detectLink inputs).initiate sha256 inputs).1

/-- Frames of other vehicles are added to those that wait in the tap. -/
def AddsFrames (vehicle : List UInt8) (allowed : Slac → List UInt8 → Prop)
    (sha256 : List UInt8 → List UInt8) (inputs : SlacInputs) (s : Slac)
    (frames added : List (List UInt8)) : Prop :=
  Inserted (drainStep inputs.now inputs.config) (fun _ frame frame' => frame = frame')
    (Foreign vehicle allowed) (s.beforeTimeouts sha256 inputs) frames added

/-- The same event, but a pass of the main loop may find more frames in the tap. -/
inductive SimilarEvent (vehicle : List UInt8) (allowed : Slac → List UInt8 → Prop)
    (sha256 : List UInt8 → List UInt8) (s : Slac) : Event → Event → Prop
  | loop (inputs : SlacInputs) (frames added : List (List UInt8)) :
      AddsFrames vehicle allowed sha256 inputs s frames added →
      SimilarEvent vehicle allowed sha256 s (.loop { inputs with frames := frames })
        (.loop { inputs with frames := added })
  | tap (now : Nat) (config : SlacConfig) (frame : List UInt8) :
      SimilarEvent vehicle allowed sha256 s (.tap now config frame) (.tap now config frame)
  | linkUpTask : SimilarEvent vehicle allowed sha256 s .linkUpTask .linkUpTask
  | outside (change : Outside) :
      SimilarEvent vehicle allowed sha256 s (.outside change) (.outside change)

/-- A frame of another vehicle that is read on its own -/
def ForeignEvent (vehicle : List UInt8) (allowed : Slac → List UInt8 → Prop) (s : Slac)
    (event : Event) : Prop :=
  ∃ now config frame, event = .tap now config frame ∧ Foreign vehicle allowed s frame

/-- The second run is the first one with frames of other vehicles added. -/
def AddsEvents (vehicle : List UInt8) (allowed : Slac → List UInt8 → Prop)
    (sha256 : List UInt8 → List UInt8) : Slac → List Event → List Event → Prop :=
  Inserted (observedStep sha256) (SimilarEvent vehicle allowed sha256)
    (ForeignEvent vehicle allowed)

/-- Every frame of the event is complete, and the tap holds no more than are read at once. -/
def FitsTap (event : Event) : Prop :=
  event.frames.length ≤ 16 ∧ ∀ frame ∈ event.frames, Complete frame

instance (event : Event) : Decidable (FitsTap event) := inferInstanceAs (Decidable (_ ∧ _))

variable {s s' : Slac} {frames : List (List UInt8)} {vehicle : List UInt8}
  {sha256 : List UInt8 → List UInt8}

theorem Alike.state (h : Alike s s') : s.state = s'.state := by
  have herase : s.erase.state = s'.erase.state := congrArg Slac.state h
  exact herase

theorem Alike.nextTimeout (h : Alike s s') : s.nextTimeout = s'.nextTimeout := by
  have herase : s.erase.nextTimeout = s'.erase.nextTimeout := congrArg Slac.nextTimeout h
  exact herase

/-- Two functions behind replies that agree -/
theorem Agree.bind {reply reply' : Reply} {f g : Slac → Reply} (h : Agree reply reply')
    (hf : Alike reply.1 reply'.1 → Agree (f reply.1) (g reply'.1)) :
    Agree (reply.andThen f) (reply'.andThen g) := by
  obtain ⟨hstate, hactions⟩ := hf h.1
  refine ⟨hstate, ?_⟩
  simp only [Reply.andThen]
  rw [h.2, hactions]

theorem drainFrames_eq_trace (now : Nat) (config : SlacConfig)
    (hframes : ∀ frame ∈ frames, Complete frame) (s : Slac) :
    drainFrames now config frames s = trace (drainStep now config) s frames := by
  induction frames generalizing s with
  | nil => rfl
  | cons frame rest ih =>
    have hne := (hframes frame (List.mem_cons_self ..)).ne_nil
    have hrest := ih (fun other hmem => hframes other (List.mem_cons_of_mem _ hmem))
    unfold drainFrames
    rw [if_neg hne]
    simp only [Reply.andThen, trace, drainStep, hrest]

/-- Complete frames of others in the tap leave no trace. -/
theorem agree_drainTap {vehicle : List UInt8} {now : Nat} {config : SlacConfig}
    {frames added : List (List UInt8)} {s s' : Slac} (hs : Alike s s')
    (h : Inserted (drainStep now config) (fun _ frame frame' => frame = frame')
      (Foreign vehicle fun s frame => s.disturbs frame = false) s' frames added)
    (hlength : added.length ≤ 16) (hcomplete : ∀ frame ∈ added, Complete frame) :
    Agree (s.drainTap now config frames) (s'.drainTap now config added) := by
  have hsubset := h.subset fun _ _ _ heq => heq
  have hframes : frames.length ≤ 16 := h.length_le.trans hlength
  unfold drainTap
  rw [List.take_of_length_le hframes, List.take_of_length_le hlength,
    drainFrames_eq_trace now config (fun frame hmem => hcomplete frame (hsubset hmem)),
    drainFrames_eq_trace now config hcomplete]
  refine (h.of_forall hcomplete).unwind ?_ ?_ hs
  · rintro t t' frame _ ht ⟨rfl, hframe⟩
    exact (blind_readAndDispatch now config hframe).agree ht
  · rintro t t' frame ht ⟨hforeign, hframe⟩
    have hharmless : Harmless vehicle t' frame :=
      ⟨hforeign.inSession, hforeign.isForeign, hframe, hforeign.allowed⟩
    obtain ⟨hstate, hactions⟩ := hharmless.readAndDispatch now config
    exact ⟨ht.trans hstate.symm, hactions⟩

/-- A pass of the main loop that finds more frames in the tap -/
theorem agree_stateMachineLoop {inputs : SlacInputs} {added : List (List UInt8)} (hs : Alike s s')
    (h : AddsFrames vehicle (fun s frame => s.disturbs frame = false) sha256 inputs s' frames added)
    (hlength : added.length ≤ 16) (hcomplete : ∀ frame ∈ added, Complete frame) :
    Agree (s.stateMachineLoop sha256 { inputs with frames := frames })
      (s'.stateMachineLoop sha256 { inputs with frames := added }) := by
  unfold stateMachineLoop
  refine Agree.bind ((blind_observe inputs).agree hs) fun hobserved => ?_
  refine ite_related (by rw [hobserved.state]) hobserved.reply ?_
  refine Agree.bind ((blind_abortSlacInit inputs).agree hobserved) fun haborted => ?_
  refine Agree.bind ((blind_initiate sha256 inputs).agree haborted) fun hinitiated => ?_
  unfold handleTimeouts
  refine ite_related (by rw [hinitiated.nextTimeout]) ?_ hinitiated.reply
  refine Agree.bind (agree_drainTap hinitiated h hlength hcomplete) fun hdrained => ?_
  exact ite_related (by rw [hdrained.nextTimeout]) ((blind_handleTimeout inputs).agree hdrained)
    hdrained.reply

theorem agree_step {event event' : Event} (hs : Alike s s')
    (h : SimilarEvent vehicle (fun s frame => s.disturbs frame = false) sha256 s' event event')
    (hfits : FitsTap event') : Agree (s.step sha256 event) (s'.step sha256 event') := by
  cases h with
  | loop inputs frames added hadds => exact agree_stateMachineLoop hs hadds hfits.1 hfits.2
  | tap now config frame =>
    exact (blind_readAndDispatch now config (hfits.2 frame (List.mem_singleton_self _))).agree hs
  | linkUpTask =>
    refine Blind.agree (f := linkUpTaskCallback) (fun s => ?_) hs
    exact ite_related Iff.rfl ⟨rfl, rfl⟩ ⟨rfl, rfl⟩
  | outside change =>
    refine Blind.agree (f := fun s => (s.outside change, [])) (fun s => ?_) hs
    cases change <;> exact ⟨rfl, rfl⟩

/-- Alike states look alike after steps that agree. -/
theorem Agree.observed {t t' : Slac} {actions actions' : List SlacAction} (hs : Alike s s')
    (h : Agree (t, actions) (t', actions')) :
    actions.map Observation.call ++ (if t.erase = s.erase then [] else [.changed t.erase]) =
      actions'.map Observation.call ++
        if t'.erase = s'.erase then [] else [.changed t'.erase] := by
  rw [show actions = actions' from h.2, show t.erase = t'.erase from h.1,
    show s.erase = s'.erase from hs]

/-- Added frames of other vehicles change nothing that is seen of the session, and the averages
that are sent are the means of the profiles of the vehicle. Every frame is complete, the tap holds
at most 16 frames and no added frame is of the kinds that are taken from anyone. -/
theorem others_leave_no_trace (vehicle : List UInt8) (sha256 : List UInt8 → List UInt8) {s : Slac}
    {events added : List Event} (hstart : s.state = .waitForStartAttenCharIndication)
    (hadds : AddsEvents vehicle (fun s frame => s.disturbs frame = false) sha256 s events added)
    (hfits : ∀ event ∈ added, FitsTap event) :
    (trace (observedStep sha256) s events).2 = (trace (observedStep sha256) s added).2 ∧
      ReportsMeans sha256 s added := by
  refine ⟨?_, ?_⟩
  · refine ((hadds.of_forall hfits).unwind (R := Alike) ?_ ?_ rfl).2
    · rintro t t' event event' ht ⟨hsimilar, hevent⟩
      have hagree := agree_step ht hsimilar hevent
      exact ⟨hagree.1, Agree.observed ht hagree⟩
    · rintro t t' _ ht ⟨⟨now, config, frame, rfl, hforeign⟩, hevent⟩
      have hframe := hevent.2 frame (List.mem_singleton_self _)
      have hharmless : Harmless vehicle t' frame :=
        ⟨hforeign.inSession, hforeign.isForeign, hframe, hforeign.allowed⟩
      have hagree : Agree (t'.step sha256 (.tap now config frame)) (t', []) :=
        hharmless.readAndDispatch now config
      refine ⟨ht.trans hagree.1.symm, ?_⟩
      refine (Agree.observed (show Alike t' t' from rfl) hagree).trans ?_
      rw [if_pos rfl]
      rfl
  · refine Averages.reportsMeans (.silent ?_ ?_) sha256 fun event hmem => (hfits event hmem).2
    · rw [hstart]
      decide
    · rw [hstart]
      decide

/-- The vehicle of the sample run has asked for a match. -/
def requested : Slac := (runFrom id (matchingSample.take 5) {}).1

/-- `CM_START_ATTEN_CHAR.IND` of a vehicle -/
def startAttenChar (vehicle : List UInt8) (numSounds : UInt8) : List UInt8 :=
  homeplugFrame vehicle 0x606A ([0, 0, numSounds, 6, 1] ++ vehicle ++ List.replicate 8 3)

/-- What the modem of the charger measured for a vehicle -/
def attenProfile (vehicle : List UInt8) (value : UInt8) : List UInt8 :=
  homeplugFrame (List.replicate 6 2) 0x6086 (vehicle ++ [58, 0] ++ List.replicate 58 value)

def slacParmRequest (vehicle : List UInt8) : List UInt8 :=
  homeplugFrame vehicle 0x6064 ([0, 0] ++ List.replicate 8 7)

/-- One of two profiles arrives in time. -/
def soundingAlone : List Event :=
  [.tap 5 {} (startAttenChar (List.replicate 6 1) 2),
    .tap 6 {} (attenProfile (List.replicate 6 1) 20),
    .loop { now := 700000, iecState := 1, frames := [] }]

/-- The neighbour is heard as well, and asks for a match just before the timeout. -/
def soundingTogether : List Event :=
  [.tap 5 {} (startAttenChar (List.replicate 6 1) 2),
    .tap 5 {} (attenProfile (List.replicate 6 9) 40),
    .tap 6 {} (attenProfile (List.replicate 6 1) 20),
    .loop { now := 700000, iecState := 1, frames := [slacParmRequest (List.replicate 6 9)] }]

theorem others_leave_no_trace_sample :
    requested.state = .waitForStartAttenCharIndication ∧
      (trace (observedStep id) requested soundingAlone).2 =
        (trace (observedStep id) requested soundingTogether).2 ∧
      ReportsMeans id requested soundingTogether := by
  refine ⟨by decide, others_leave_no_trace (List.replicate 6 1) id (by decide)
    ?_ (by decide)⟩
  refine .keep (.tap ..) (.insert ⟨5, {}, _, rfl, ?_⟩ (.keep (.tap ..)
    (.keep (.loop { now := 700000, iecState := 1 } [] [_] (.insert ?_ (.nil _))) (.nil _))))
  · exact ⟨⟨by decide, by decide, by decide, by decide⟩,
      by decide, by decide⟩
  · exact ⟨⟨by decide, by decide, by decide, by decide⟩,
      by decide, by decide⟩

/-- A neighbour starts its own sounding phase with a single sound. -/
theorem neighbour_ends_sounding :
    ¬∀ (vehicle : List UInt8) (sha256 : List UInt8 → List UInt8) (s : Slac)
      (events added : List Event), s.state = .waitForStartAttenCharIndication →
      AddsEvents vehicle (fun _ _ => True) sha256 s events added →
      (trace (observedStep sha256) s events).2 = (trace (observedStep sha256) s added).2 ∧
        ReportsMeans sha256 s added := by
  intro h
  have hdiffers : (trace (observedStep id) requested (soundingAlone.take 2)).2 ≠
      (trace (observedStep id) requested [.tap 5 {} (startAttenChar (List.replicate 6 1) 2),
          .tap 5 {} (startAttenChar (List.replicate 6 9) 1),
          .tap 6 {} (attenProfile (List.replicate 6 1) 20)]).2 := by
    decide
  refine hdiffers (h (List.replicate 6 1) id requested _ _ (by decide) ?_).1
  refine .keep (.tap ..) (.insert ⟨5, {}, _, rfl, ?_, ?_, trivial⟩ (.keep (.tap ..) (.nil _)))
  · exact ⟨by decide, by decide, by decide, by decide⟩
  · decide

end Slac

end Esp32Firmware.Iso15118
