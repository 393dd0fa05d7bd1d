import WayRay.Collections.GuardedRun
import WayRay.Frames.Link
import WayRay.Frames.Patch
import WayRay.Frames.RoundTrip

/-!
# Frame agreement

Every frame that a client applies makes its screen show the pixels of the render that the frame
comes from: `agreement_run`, over every run of the compositor, the queue and the connections, for
any contents of the client's framebuffer at first.

* A frame that patches only a screen with given pixels is queued right behind the frame that shows
  them (`Chained`); the network thread takes frames off in order and begins a connection with a
  keyframe.
* `Linked` is the invariant between the compositor, the queue and the screen: when no keyframe is
  due, the last frame queued comes from the last render.
* `Cadence` bounds the delta frames in a row.
-/

namespace WayRay

open Encoding GuardedRun

/-! ### The frame state under network events -/

namespace CalloopData

variable {S : Type} {d : CalloopData S}

/-- What an event of the network thread may do to the frames: if a client is connected afterwards
and no keyframe is due, nothing has changed. -/
structure KeepsFrames (d d' : CalloopData S) : Prop where
  since_eq : d'.framesSinceKeyframe = d.framesSinceKeyframe
  kept : d'.clientConnected = true → d'.forceKeyframe = false →
    d.clientConnected = true ∧ d.forceKeyframe = false ∧ d'.previousFrame = d.previousFrame

theorem KeepsFrames.of_eq {d d' : CalloopData S} (hframes : d'.toFrameState = d.toFrameState)
    (hconnected : d'.clientConnected = d.clientConnected) : KeepsFrames d d' := by
  constructor
  · rw [hframes]
  · intro hc hf
    rw [hframes] at hf ⊢
    exact ⟨hconnected ▸ hc, hf, rfl⟩

theorem findHome_frames (d : CalloopData S) (env : Surroundings) (token : SessionToken) :
    (d.findHome env token).2.toFrameState = d.toFrameState ∧
      (d.findHome env token).2.clientConnected = d.clientConnected := by
  unfold findHome
  cases d.sessionRegistry.locate env.locatedAt token with
  | localTo _ | remote _ => exact ⟨rfl, rfl⟩
  | unknown => cases d.discoverRemoteHome env <;> exact ⟨rfl, rfl⟩

theorem resumeSession_frames (d : CalloopData S) (env : Surroundings) (id : SessionId) :
    (d.resumeSession env id).toFrameState = d.toFrameState := by
  unfold resumeSession
  split <;> rfl

theorem keepsFrames_bindClient {d d₁ : CalloopData S} (h : d₁.toFrameState = d.toFrameState)
    (id : SessionId) (resumed : Bool) (token : SessionToken) (remoteAddr : String) :
    KeepsFrames d (d₁.bindClient id resumed token remoteAddr).2 := by
  constructor
  · change d₁.framesSinceKeyframe = _
    rw [h]
  · -- a keyframe is due
    exact fun _ hf => absurd hf (by simp [bindClient, publishClusterState])

theorem keepsFrames_connectClient (d : CalloopData S) (env : Surroundings) (hello : ClientHello)
    (remoteAddr : String) : KeepsFrames d (d.connectClient env hello remoteAddr).2 := by
  unfold connectClient
  obtain ⟨hframes, hconnected⟩ := d.findHome_frames env ⟨hello.token.getD env.randomToken⟩
  dsimp only
  split
  · exact .of_eq hframes hconnected
  · split
    · exact keepsFrames_bindClient ((resumeSession_frames _ env _).trans hframes) _ _ _ _
    · split
      · exact .of_eq hframes hconnected
      · refine keepsFrames_bindClient ?_ _ _ _ _
        exact hframes

theorem keepsFrames_drainEvent (desktop : Desktop S) (d : CalloopData S) (env : Surroundings)
    (event : NetToCompositor) : KeepsFrames d (d.drainEvent desktop env event).2 := by
  cases event with
  | input msg => exact .of_eq rfl rfl
  | clientConnected hello remoteAddr => exact keepsFrames_connectClient d env hello remoteAddr
  | clientDisconnected =>
    unfold drainEvent disconnectClient
    constructor
    · dsimp only
      cases d.activeSession <;> rfl
    · exact fun hc => absurd hc (by simp [publishClusterState])
  | control msg =>
    cases msg with
    | requestKeyframe => exact ⟨rfl, fun _ hf => absurd hf (by simp [drainEvent, handleControl])⟩
    | _ => exact .of_eq rfl rfl

theorem keepsFrames_cleanupTick (d : CalloopData S) (cleanedAt prunedAt : Clock) :
    KeepsFrames d (d.cleanupTick cleanedAt prunedAt) := by
  unfold cleanupTick
  dsimp only
  split_ifs <;> exact .of_eq rfl rfl

end CalloopData

/-! ### The queue -/

section Queue

variable (zstd : Zstd) (o : OutputMode)

/-- The pixels that the last frame of a queue shows; `base` if there is no frame in it. -/
def lastShown (base : Option Bytes) : List (CompositorToNet × Bytes) → Option Bytes
  | [] => base
  | (.sendFrame _, pixels) :: rest | (.sendKeyframe _, pixels) :: rest =>
    lastShown (some pixels) rest
  | (.sendControl _, _) :: rest | (.sendAudio _, _) :: rest | (.shutdown, _) :: rest =>
    lastShown base rest

/-- Each keyframe patches every screen, and each other frame a screen that shows what the frame
before it does, or `base` for the first one. -/
def Chained : Option Bytes → List (CompositorToNet × Bytes) → Prop
  | _, [] => True
  | base, (.sendFrame frame, pixels) :: rest =>
    (∃ before, base = some before ∧ Patches zstd o frame base pixels) ∧ Chained (some pixels) rest
  | _, (.sendKeyframe frame, pixels) :: rest =>
    Patches zstd o frame none pixels ∧ Chained (some pixels) rest
  | base, (.sendControl _, _) :: rest | base, (.sendAudio _, _) :: rest
  | base, (.shutdown, _) :: rest => Chained base rest

theorem lastShown_append (base : Option Bytes) (queue later : List (CompositorToNet × Bytes)) :
    lastShown base (queue ++ later) = lastShown (lastShown base queue) later := by
  induction queue generalizing base with
  | nil => rfl
  | cons entry queue ih =>
    obtain ⟨msg, pixels⟩ := entry
    cases msg <;> exact ih _

theorem chained_append {base : Option Bytes} {queue later : List (CompositorToNet × Bytes)} :
    Chained zstd o base (queue ++ later) ↔
      Chained zstd o base queue ∧ Chained zstd o (lastShown base queue) later := by
  induction queue generalizing base with
  | nil => exact (and_iff_right trivial).symm
  | cons entry queue ih =>
    obtain ⟨msg, pixels⟩ := entry
    cases msg with
    | sendFrame frame | sendKeyframe frame =>
      rw [List.cons_append, Chained, Chained, lastShown, ih, and_assoc]
    | sendControl _ | sendAudio _ | shutdown => exact ih

end Queue

/-! ### The delta frames in a row -/

/-- No more than `keyframeInterval` delta frames in a row have been sent. -/
def DeltasBounded (sent : List CompositorToNet) : Prop :=
  ∀ deltas, deltas <:+: sent → (∀ msg ∈ deltas, msg.isKeyframe = false) →
    deltas.length ≤ keyframeInterval

/-- No more than `since` delta frames have been sent after the last keyframe. -/
structure Cadence (since : ℕ) (sent : List CompositorToNet) : Prop where
  since_le : since ≤ keyframeInterval
  atEnd : ∀ deltas, deltas <:+ sent → (∀ msg ∈ deltas, msg.isKeyframe = false) →
    deltas.length ≤ since

theorem deltasBounded_nil : DeltasBounded [] := by
  intro deltas h _
  rw [List.infix_nil.1 h]
  exact Nat.zero_le _

theorem Cadence.bounded {since : ℕ} {sent : List CompositorToNet} {msg : CompositorToNet}
    (h : Cadence since (sent ++ [msg])) (hbounded : DeltasBounded sent) :
    DeltasBounded (sent ++ [msg]) := by
  intro deltas hdeltas hall
  rcases List.infix_concat_iff.1 hdeltas with hend | hold
  · exact (h.atEnd deltas hend hall).trans h.since_le
  · exact hbounded deltas hold hall

/-- A keyframe begins a new row. -/
theorem cadence_keyframe (sent : List CompositorToNet) (frame : FrameUpdate) :
    Cadence 0 (sent ++ [.sendKeyframe frame]) := by
  refine ⟨Nat.zero_le _, fun deltas hdeltas hall => ?_⟩
  rcases List.suffix_concat_iff.1 (by simpa using hdeltas) with rfl | ⟨rest, rfl, -⟩
  · exact Nat.le_refl 0
  · exact absurd (hall (.sendKeyframe frame) (by simp)) (by simp [CompositorToNet.isKeyframe])

theorem Cadence.delta {since : ℕ} {sent : List CompositorToNet} (h : Cadence since sent)
    (hlt : since < keyframeInterval) (frame : FrameUpdate) :
    Cadence (since + 1) (sent ++ [.sendFrame frame]) := by
  refine ⟨hlt, fun deltas hdeltas hall => ?_⟩
  rcases List.suffix_concat_iff.1 (by simpa using hdeltas) with rfl | ⟨rest, rfl, hrest⟩
  · exact Nat.zero_le _
  · have hle : rest.length ≤ since := h.atEnd rest hrest fun msg hmsg => hall msg (by simp [hmsg])
    simpa using hle

/-! ### What a render does -/

/-- A client is connected and no keyframe is due. -/
def CalloopData.Continues {S : Type} (d : CalloopData S) : Prop :=
  d.clientConnected = true ∧ d.forceKeyframe = false

section Render

variable {S : Type} (zstd : Zstd) (o : OutputMode)

/-- What a render does to the compositor, and the message it sends. -/
inductive Renders (pixels : Bytes) (damage : Option (List Rect)) (d : CalloopData S) :
    CalloopData S → Option CompositorToNet → Prop
  /-- There is no client, or no network thread any more. -/
  | nobody (d' : CalloopData S) (hnobody : ¬ d'.Continues) : Renders pixels damage d d' none
  /-- The frame is the same as the last one sent. -/
  | same (hforce : d.forceKeyframe = false) (hpixels : pixels = d.previousFrame) :
    Renders pixels damage d d none
  | keyframe (d' : CalloopData S) (frame : FrameUpdate) (hprevious : d'.previousFrame = pixels)
    (hsince : d'.framesSinceKeyframe = 0) (hpatches : Patches zstd o frame none pixels) :
    Renders pixels damage d d' (some (.sendKeyframe frame))
  | delta (d' : CalloopData S) (frame : FrameUpdate) (hcontinues : d.Continues)
    (hprevious : d'.previousFrame = pixels)
    (hsince : d'.framesSinceKeyframe = d.framesSinceKeyframe + 1)
    (hlt : d.framesSinceKeyframe < keyframeInterval)
    (hpatches : ∀ before, (∀ rects, damage = some rects → o.Covers rects before pixels) →
      Patches zstd o frame (some before) pixels) :
    Renders pixels damage d d' (some (.sendFrame frame))

variable {o} {pixels : Bytes} {damage : Option (List Rect)}

/-- A render of the output does not panic. -/
theorem exists_renders (d : CalloopData S) (netAlive : Bool) (hlen : pixels.length = o.frameSize)
    (hinside : DamageInside o damage) :
    ∃ d' msg, d.renderHeadlessFrame zstd o netAlive pixels damage = some (d', msg) ∧
      Renders zstd o pixels damage d d' msg := by
  unfold CalloopData.renderHeadlessFrame CalloopData.sendFrameToNetwork
  by_cases hconnected : d.clientConnected = true
  · rw [if_pos hconnected]
    rcases nextFrame_cases zstd d.toFrameState hlen hinside with
      ⟨hforce, hpixels, hnext⟩ | ⟨frame, hnext, hpatches⟩ | ⟨frame, hnext, hforce, hlt, hpatches⟩
    · rw [hnext]
      exact ⟨_, _, rfl, .same hforce hpixels⟩
    · rw [hnext]
      cases netAlive with
      | true => exact ⟨_, _, rfl, .keyframe _ frame rfl rfl hpatches⟩
      | false => exact ⟨_, _, rfl, .nobody _ fun h => Bool.false_ne_true h.1⟩
    · rw [hnext]
      cases netAlive with
      | true => exact ⟨_, _, rfl, .delta _ frame ⟨hconnected, hforce⟩ rfl rfl hlt hpatches⟩
      | false => exact ⟨_, _, rfl, .nobody _ fun h => Bool.false_ne_true h.1⟩
  · rw [if_neg hconnected]
    exact ⟨_, _, rfl, .nobody _ fun h => hconnected h.1⟩

end Render

/-! ### The invariant -/

namespace FrameSystem

variable {S : Type} (zstd : Zstd) (o : OutputMode) (desktop : Desktop S)

/-- What a run may bring: renders of the output whose damage lies inside it and contains all that
has changed since the last render, and framebuffers of the output's size. -/
def Admissible (s : FrameSystem S) : FrameEvent S → Prop
  | .render pixels damage _ =>
    pixels.length = o.frameSize ∧ DamageInside o damage ∧
      ∀ rects, damage = some rects →
        ∀ before, s.rendered = some before → o.Covers rects before pixels
  | .serve framebuffer => framebuffer.length = o.width * bpp * o.height
  | _ => True

/-- The compositor and the queue, of which all frames up to one that shows `base` have been
taken. -/
structure Queued (s : FrameSystem S) (base : Option Bytes) : Prop where
  chained : Chained zstd o base s.queue
  current : s.compositor.Continues → s.rendered = some s.compositor.previousFrame ∧
    lastShown base s.queue = some s.compositor.previousFrame

/-- The screen of a connection that has taken all frames up to one that shows `base`. -/
structure OnScreen (base : Option Bytes) (c : FrameConnection) : Prop where
  fits : o.Fits c.screen
  seen : c.keyframeSeen = true → ∃ frame pixels, c.shown = some (frame, pixels) ∧ base = some pixels
  agrees : ∀ frame pixels, c.shown = some (frame, pixels) →
    o.Shows pixels c.screen ∧ c.screen.localChecksum = some frame.checksum

/-- The compositor, the queue and the screen agree. -/
structure Linked (s : FrameSystem S) : Prop where
  alive : s.panicked = false
  bounded : DeltasBounded s.sent
  cadence : s.compositor.Continues → Cadence s.compositor.framesSinceKeyframe s.sent
  linked : ∃ base, Queued zstd o s base ∧ ∀ c, s.connection = some c → OnScreen o base c

variable {zstd o} {s : FrameSystem S}

/-- Whatever the compositor does but rendering. -/
theorem Linked.keepsFrames (h : Linked zstd o s) {d' : CalloopData S}
    (hkeeps : s.compositor.KeepsFrames d') : Linked zstd o { s with compositor := d' } := by
  obtain ⟨base, hqueued, hscreen⟩ := h.linked
  have hcontinues : d'.Continues →
      s.compositor.Continues ∧ d'.previousFrame = s.compositor.previousFrame := by
    intro hc
    obtain ⟨hconnected, hforce, hprevious⟩ := hkeeps.kept hc.1 hc.2
    exact ⟨⟨hconnected, hforce⟩, hprevious⟩
  refine ⟨h.alive, h.bounded, fun hc => ?_, base, ⟨hqueued.chained, fun hc => ?_⟩, hscreen⟩
  · show Cadence d'.framesSinceKeyframe s.sent
    rw [hkeeps.since_eq]
    exact h.cadence (hcontinues hc).1
  · obtain ⟨hbefore, hprevious⟩ := hcontinues hc
    show s.rendered = some d'.previousFrame ∧ lastShown base s.queue = some d'.previousFrame
    rw [hprevious]
    exact hqueued.current hbefore

/-- A control message in the queue changes nothing. -/
theorem Linked.control (h : Linked zstd o s) (msg : ControlMessage) :
    Linked zstd o { s with queue := s.queue ++ [(.sendControl msg, [])] } := by
  obtain ⟨base, hqueued, hscreen⟩ := h.linked
  refine ⟨h.alive, h.bounded, h.cadence, base, ⟨?_, fun hc => ?_⟩, hscreen⟩
  · exact (chained_append zstd o).2 ⟨hqueued.chained, trivial⟩
  · rw [lastShown_append]
    exact hqueued.current hc

/-- A render. -/
theorem Linked.render (h : Linked zstd o s) {pixels : Bytes} {damage : Option (List Rect)}
    {netAlive : Bool} (hadmissible : Admissible o s (.render pixels damage netAlive)) :
    Linked zstd o (s.render zstd o pixels damage netAlive) := by
  obtain ⟨hlen, hinside, hcovers⟩ := hadmissible
  obtain ⟨base, hqueued, hscreen⟩ := h.linked
  obtain ⟨d', msg, hrender, hrenders⟩ := exists_renders zstd s.compositor netAlive hlen hinside
  rw [FrameSystem.render, hrender]
  cases hrenders with
  | nobody _ hnobody =>
    refine ⟨h.alive, ?_, fun hc => absurd hc hnobody, base, ⟨?_, fun hc => absurd hc hnobody⟩,
      hscreen⟩
    · simpa using h.bounded
    · simpa using hqueued.chained
  | same _ hpixels =>
    refine ⟨h.alive, ?_, fun hc => ?_, base, ⟨?_, fun hc => ?_⟩, hscreen⟩
    · simpa using h.bounded
    · simpa using h.cadence hc
    · simpa using hqueued.chained
    · -- the pixels are those of the last render again
      simpa [hpixels] using (hqueued.current hc).2
  | keyframe _ frame hprevious hsince hpatches =>
    have hcadence : Cadence d'.framesSinceKeyframe (s.sent ++ [.sendKeyframe frame]) := by
      rw [hsince]
      exact cadence_keyframe s.sent frame
    refine ⟨h.alive, hcadence.bounded h.bounded, fun _ => hcadence, base, ⟨?_, fun _ => ?_⟩,
      hscreen⟩
    · exact (chained_append zstd o).2 ⟨hqueued.chained, hpatches, trivial⟩
    · refine ⟨congrArg some hprevious.symm, ?_⟩
      show lastShown base (s.queue ++ [(.sendKeyframe frame, pixels)]) = some d'.previousFrame
      rw [lastShown_append, hprevious]
      rfl
  | delta _ frame hcontinues hprevious hsince hlt hpatches =>
    -- the last frame queued shows the last render, from which the damage is counted
    obtain ⟨hrendered, hlast⟩ := hqueued.current hcontinues
    have hcadence : Cadence d'.framesSinceKeyframe (s.sent ++ [.sendFrame frame]) := by
      rw [hsince]
      exact (h.cadence hcontinues).delta hlt frame
    have hpatch : Patches zstd o frame (some s.compositor.previousFrame) pixels :=
      hpatches _ fun rects hrects => hcovers rects hrects _ hrendered
    refine ⟨h.alive, hcadence.bounded h.bounded, fun _ => hcadence, base, ⟨?_, fun _ => ?_⟩,
      hscreen⟩
    · refine (chained_append zstd o).2 ⟨hqueued.chained, ?_⟩
      rw [hlast]
      exact ⟨⟨_, rfl, hpatch⟩, trivial⟩
    · refine ⟨congrArg some hprevious.symm, ?_⟩
      show lastShown base (s.queue ++ [(.sendFrame frame, pixels)]) = some d'.previousFrame
      rw [lastShown_append, hprevious]
      rfl

/-- A new connection, which has not seen its keyframe. -/
theorem Linked.serve (h : Linked zstd o s) {framebuffer : Bytes}
    (hlen : framebuffer.length = o.width * bpp * o.height) :
    Linked zstd o
      { s with connection := some ⟨false, ⟨framebuffer, o.width * bpp, false⟩, none⟩ } := by
  obtain ⟨base, hqueued, -⟩ := h.linked
  refine ⟨h.alive, h.bounded, h.cadence, base, ⟨hqueued.chained, hqueued.current⟩, fun c hc => ?_⟩
  obtain rfl := Option.some.inj hc
  exact ⟨⟨rfl, hlen⟩, fun hseen => absurd hseen Bool.false_ne_true,
    fun _ _ hshown => absurd hshown (by simp)⟩

theorem Linked.hangUp (h : Linked zstd o s) : Linked zstd o { s with connection := none } := by
  obtain ⟨base, hqueued, -⟩ := h.linked
  exact ⟨h.alive, h.bounded, h.cadence, base, ⟨hqueued.chained, hqueued.current⟩,
    fun c hc => absurd hc (by simp)⟩

/-! ### Taking a frame off the queue -/

variable {base : Option Bytes}

/-- The queue without its first message. -/
theorem Queued.pop {msg : CompositorToNet} {pixels : Bytes} {rest : List (CompositorToNet × Bytes)}
    (h : Queued zstd o s base) (hqueue : s.queue = (msg, pixels) :: rest) :
    Chained zstd o base [(msg, pixels)] ∧
      Queued zstd o { s with queue := rest } (lastShown base [(msg, pixels)]) := by
  have hsplit : s.queue = [(msg, pixels)] ++ rest := hqueue
  obtain ⟨hfirst, hrest⟩ := (chained_append zstd o).1 (hsplit ▸ h.chained)
  refine ⟨hfirst, hrest, fun hc => ?_⟩
  have hcurrent := h.current hc
  rwa [hsplit, lastShown_append] at hcurrent

/-- A frame that patches the screen of a connection. -/
theorem exists_applyFrame (s : FrameSystem S) {c : FrameConnection} {frame : FrameUpdate}
    {pixels : Bytes} (hpatches : Patches zstd o frame base pixels) (hfits : o.Fits c.screen)
    (hshows : ∀ before, base = some before → o.Shows before c.screen) :
    ∃ c', s.applyFrame zstd c frame pixels = { s with connection := some c' } ∧
      OnScreen o (some pixels) c' := by
  obtain ⟨screen, hreceive, hfits', hshows', hchecksum⟩ := hpatches c.screen hfits hshows
  refine ⟨⟨true, screen, some (frame, pixels)⟩, ?_, hfits', fun _ => ⟨frame, pixels, rfl, rfl⟩, ?_⟩
  · rw [applyFrame, hreceive]
  · intro frame' pixels' hshown
    obtain ⟨rfl, rfl⟩ := Prod.mk.inj (Option.some.inj hshown)
    exact ⟨hshows', hchecksum⟩

/-- What the screen shows if the connection has seen its keyframe. -/
theorem OnScreen.shows {c : FrameConnection} (h : OnScreen o base c)
    (hseen : c.keyframeSeen = true) :
    ∀ before, base = some before → o.Shows before c.screen := by
  intro before hbefore
  obtain ⟨frame, pixels, hshown, hbase⟩ := h.seen hseen
  obtain rfl : pixels = before := Option.some.inj (hbase.symm.trans hbefore)
  exact (h.agrees frame pixels hshown).1

/-- A connection that has not seen its keyframe does not care what has been taken. -/
theorem OnScreen.unseen {c : FrameConnection} (h : OnScreen o base c)
    (hseen : c.keyframeSeen = false) (base' : Option Bytes) : OnScreen o base' c := by
  refine ⟨h.fits, fun hs => ?_, h.agrees⟩
  rw [hseen] at hs
  exact absurd hs Bool.false_ne_true

/-- What a message does to the connection. -/
theorem exists_forward (s : FrameSystem S) {c : FrameConnection} (h : OnScreen o base c)
    (hconnection : s.connection = some c) {msg : CompositorToNet} {pixels : Bytes}
    (hchained : Chained zstd o base [(msg, pixels)]) :
    ∃ connection, s.forward zstd c pixels msg = { s with connection := connection } ∧
      ∀ c', connection = some c' → OnScreen o (lastShown base [(msg, pixels)]) c' := by
  cases msg with
  | sendFrame frame =>
    cases hseen : c.keyframeSeen with
    | true =>
      obtain ⟨⟨-, -, hpatches⟩, -⟩ := hchained
      obtain ⟨c', happly, honscreen⟩ := exists_applyFrame s hpatches h.fits (h.shows hseen)
      refine ⟨some c', ?_, ?_⟩
      · rw [forward, if_pos hseen, happly]
      · rintro _ ⟨⟩
        exact honscreen
    | false =>
      -- queued for the connection before
      refine ⟨s.connection, ?_, ?_⟩
      · rw [forward, hseen]
        rfl
      · intro c' hc'
        obtain rfl := Option.some.inj (hconnection.symm.trans hc')
        exact h.unseen hseen _
  | sendKeyframe frame =>
    obtain ⟨c', happly, honscreen⟩ :=
      exists_applyFrame s hchained.1 h.fits fun before hbefore => absurd hbefore (by simp)
    refine ⟨some c', happly, ?_⟩
    rintro _ ⟨⟩
    exact honscreen
  | sendControl _ | sendAudio _ =>
    refine ⟨s.connection, rfl, ?_⟩
    intro c' hc'
    obtain rfl := Option.some.inj (hconnection.symm.trans hc')
    exact h
  | shutdown => exact ⟨none, rfl, fun _ hc' => absurd hc' (by simp)⟩

/-- The network thread takes a message off the queue. -/
theorem Linked.pop (h : Linked zstd o s) : Linked zstd o (s.pop zstd) := by
  obtain ⟨base, hqueued, hscreen⟩ := h.linked
  cases hqueue : s.queue with
  | nil =>
    have hpop : s.pop zstd = s := by rw [FrameSystem.pop, hqueue]
    rwa [hpop]
  | cons entry rest =>
    obtain ⟨msg, pixels⟩ := entry
    obtain ⟨hfirst, hrest⟩ := hqueued.pop hqueue
    cases hconnection : s.connection with
    | none =>
      have hpop : s.pop zstd = { s with queue := rest } := by
        simp [FrameSystem.pop, hqueue, hconnection]
      rw [hpop]
      refine ⟨h.alive, h.bounded, h.cadence, _, hrest, fun c hc => ?_⟩
      exact absurd (hconnection.symm.trans hc) (by simp)
    | some c =>
      have hpop : s.pop zstd = forward zstd { s with queue := rest } c pixels msg := by
        simp [FrameSystem.pop, hqueue, hconnection]
      obtain ⟨connection, hforward, honscreen⟩ :=
        exists_forward { s with queue := rest } (hscreen c hconnection) hconnection hfirst
      rw [hpop, hforward]
      exact ⟨h.alive, h.bounded, h.cadence, _, ⟨hrest.chained, hrest.current⟩, honscreen⟩

/-! ### Runs -/

/-- Every step keeps the agreement. -/
theorem linked_step (s : FrameSystem S) (event : FrameEvent S) (h : Linked zstd o s)
    (hadmissible : Admissible o s event) : Linked zstd o (step zstd o desktop s event) := by
  cases event with
  | net env event => exact h.keepsFrames (s.compositor.keepsFrames_drainEvent desktop env event)
  | netClosed => exact h.keepsFrames ⟨rfl, fun hc => absurd hc Bool.false_ne_true⟩
  | cleanup cleanedAt prunedAt =>
    exact h.keepsFrames (s.compositor.keepsFrames_cleanupTick cleanedAt prunedAt)
  | dispatch state => exact h.keepsFrames (.of_eq rfl rfl)
  | control msg => exact h.control msg
  | render pixels damage netAlive => exact h.render hadmissible
  | renderFailed => exact h
  | serve framebuffer => exact h.serve hadmissible
  | hangUp => exact h.hangUp
  | pop => exact h.pop

/-- The compositor boots without a client. -/
theorem linked_boot (state : S) (cluster : ClusterConfig) (peerRt launcherLinked : Bool)
    (stateDb : Option SessionTable) (clk : Clock)
    (find : Enumeration (SessionId × SessionRecord)) :
    Linked zstd o (boot o state cluster peerRt launcherLinked stateDb clk find) := by
  refine ⟨rfl, deltasBounded_nil, fun hc => absurd hc.1 Bool.false_ne_true, none, ⟨trivial, ?_⟩, ?_⟩
  · exact fun hc => absurd hc.1 Bool.false_ne_true
  · exact fun c hc => absurd hc (by simp [boot])

/-- **Frame agreement**: in every admissible run, a connection that has seen its keyframe has
applied a frame; its screen shows the pixels of the render that the last frame applied comes from,
its own checksum is that of the frame, and no more than `keyframeInterval` delta frames in a row
have been sent. -/
theorem agreement_run (state : S) (cluster : ClusterConfig) (peerRt launcherLinked : Bool)
    (stateDb : Option SessionTable) (clk : Clock) (find : Enumeration (SessionId × SessionRecord))
    (events : List (FrameEvent S))
    (h : Along (step zstd o desktop) (Admissible o)
      (boot o state cluster peerRt launcherLinked stateDb clk find) events) :
    let s := run zstd o desktop (boot o state cluster peerRt launcherLinked stateDb clk find) events
    s.panicked = false ∧
      (∀ c, s.connection = some c →
        (c.keyframeSeen = true → c.shown.isSome) ∧
        ∀ frame pixels, c.shown = some (frame, pixels) →
          o.Shows pixels c.screen ∧ c.screen.localChecksum = some frame.checksum) ∧
      ∀ deltas, deltas <:+: s.sent → (∀ msg ∈ deltas, msg.isKeyframe = false) →
        deltas.length ≤ keyframeInterval := by
  intro s
  have hlinked : Linked zstd o s :=
    h.invariant (linked_step desktop)
      (linked_boot state cluster peerRt launcherLinked stateDb clk find)
  obtain ⟨base, -, hscreen⟩ := hlinked.linked
  refine ⟨hlinked.alive, fun c hc => ⟨fun hseen => ?_, (hscreen c hc).agrees⟩, hlinked.bounded⟩
  obtain ⟨frame, pixels, hshown, -⟩ := (hscreen c hc).seen hseen
  rw [hshown]
  rfl

section Witness

/-- An output of a single pixel. -/
def onePixel : OutputMode := ⟨1, 1, 4, by decide, by decide, by decide, by decide⟩

/-- A client connects and is shown two renders; its framebuffer is not black at first. -/
def twoRenders : List (FrameEvent Unit) :=
  [.net CalloopData.quiet (.clientConnected ⟨2, [], some "t"⟩ "c"), .serve [9, 9, 9, 9],
    .render [1, 2, 3, 4] none true, .pop, .render [5, 6, 7, 8] (some [⟨0, 0, 1, 1⟩]) true, .pop]

theorem admissible_twoRenders :
    Along (step rawBlock onePixel CalloopData.nullDesktop) (Admissible onePixel)
      (boot onePixel () ⟨"", "", []⟩ false false none ⟨0, 0⟩ .stored) twoRenders := by
  refine ⟨trivial, rfl, ⟨rfl, fun _ h => absurd h (by simp), fun _ h => absurd h (by simp)⟩,
    trivial, ⟨rfl, ?_, ?_⟩, trivial, trivial⟩
  · rintro _ ⟨⟩ r hr
    obtain rfl := List.mem_singleton.1 hr
    constructor <;> decide
  · rintro _ ⟨⟩ before - row hrow col hcol -
    refine ⟨_, List.mem_singleton_self _, ?_⟩
    have hrow' : row < 1 := hrow
    have hcol' : col < 1 := hcol
    show (0 : ℤ) ≤ row ∧ (row : ℤ) < 0 + 1 ∧ (0 : ℤ) ≤ col ∧ (col : ℤ) < 0 + 1
    omega

/-- The second render is on the screen. -/
theorem agreement_run_twoRenders :
    ∃ (c : FrameConnection) (frame : FrameUpdate),
      (run rawBlock onePixel CalloopData.nullDesktop
        (boot onePixel () ⟨"", "", []⟩ false false none ⟨0, 0⟩ .stored) twoRenders).connection =
          some c ∧
      onePixel.Shows [5, 6, 7, 8] c.screen ∧ c.screen.localChecksum = some frame.checksum := by
  have hpixels : ((run rawBlock onePixel CalloopData.nullDesktop
      (boot onePixel () ⟨"", "", []⟩ false false none ⟨0, 0⟩ .stored)
      twoRenders).connection.bind FrameConnection.shown).map Prod.snd = some [5, 6, 7, 8] := by
    decide
  obtain ⟨-, hconnection, -⟩ := agreement_run CalloopData.nullDesktop () ⟨"", "", []⟩ false false
    none ⟨0, 0⟩ .stored twoRenders admissible_twoRenders
  obtain ⟨⟨frame, pixels⟩, hshown, rfl⟩ := Option.map_eq_some_iff.mp hpixels
  obtain ⟨c, hc, hshown⟩ := Option.bind_eq_some_iff.mp hshown
  exact ⟨c, frame, hc, (hconnection c hc).2 frame _ hshown⟩

end Witness

end FrameSystem

end WayRay
