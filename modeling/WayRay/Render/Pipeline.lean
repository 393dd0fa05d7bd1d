import WayRay.Frames.Agreement
import WayRay.Render.Display

/-!
# From the scene to the screen

`render_headless_frame`: the compositor draws the scene into one buffer in memory, which always
holds the frame before, and sends what has changed to the client.

`RenderPipeline` puts the display in front of the frames' way to the screen.  That the damage of a
render contains all that has changed since the last one, which the way to the screen relies on, is
what the display guarantees (`admissible_render`); it follows that the screen of a client shows the
picture of a scene that was rendered (`screen_run`).
-/

namespace WayRay

open Encoding GuardedRun Rect Raster

variable {ι κ A C S : Type}

/-! ### The memory -/

namespace OutputMode

variable (o : OutputMode) (colorBytes : C → ℕ → UInt8)

/-- The memory of a picture: its pixels row by row, and the padding. -/
def memory (padding : ℕ → UInt8) (picture : ℤ × ℤ → C) : Bytes :=
  (List.range o.frameSize).map fun i =>
    if i % o.stride < o.width * bpp then
      colorBytes (picture ((i % o.stride / bpp : ℕ), (i / o.stride : ℕ))) (i % o.stride % bpp)
    else padding i

/-- Render buffers hold a picture. -/
def Depicts (picture : ℤ × ℤ → C) (pixels : Bytes) : Prop :=
  ∀ row < o.height, ∀ col < o.width, ∀ k < bpp,
    pixels[row * o.stride + (col * bpp + k)]? = some (colorBytes (picture (col, row)) k)

/-- The screen of a client shows a picture. -/
def Displays (picture : ℤ × ℤ → C) (c : ClientScreen) : Prop :=
  ∀ row < o.height, ∀ col < o.width, ∀ k < bpp,
    c.framebuffer[row * c.stride + (col * bpp + k)]? = some (colorBytes (picture (col, row)) k)

variable {o colorBytes} {picture picture' : ℤ × ℤ → C} {pixels pixels' : Bytes}

/-- The bytes of a pixel. -/
theorem byte_spec {width col k : ℕ} (hcol : col < width) (hk : k < bpp) :
    col * bpp + k < width * bpp ∧ (col * bpp + k) / bpp = col ∧ (col * bpp + k) % bpp = k := by
  unfold bpp at *
  omega

theorem length_memory (padding : ℕ → UInt8) (picture : ℤ × ℤ → C) :
    (o.memory colorBytes padding picture).length = o.frameSize := by
  rw [memory, List.length_map, List.length_range]

theorem depicts_memory (padding : ℕ → UInt8) (picture : ℤ × ℤ → C) :
    o.Depicts colorBytes picture (o.memory colorBytes padding picture) := by
  intro row hrow col hcol k hk
  obtain ⟨hin, hdiv, hmod⟩ := byte_spec hcol hk
  have hstride := hin.trans_le o.stride_le
  have hindex : row * o.stride + (col * bpp + k) < o.frameSize := by
    have := Encoding.row_fits o.stride_le hrow
    unfold frameSize
    omega
  have hrow' : (row * o.stride + (col * bpp + k)) / o.stride = row := by
    rw [Nat.mul_comm, Nat.mul_add_div (by omega), Nat.div_eq_of_lt hstride, Nat.add_zero]
  have hcol' : (row * o.stride + (col * bpp + k)) % o.stride = col * bpp + k := by
    rw [Nat.mul_comm, Nat.mul_add_mod, Nat.mod_eq_of_lt hstride]
  rw [memory, List.getElem?_map, List.getElem?_range hindex, Option.map_some, hrow', hcol',
    if_pos hin, hdiv, hmod]

theorem Depicts.congr (h : o.Depicts colorBytes picture pixels)
    (heq : ∀ row < o.height, ∀ col < o.width, picture (col, row) = picture' (col, row)) :
    o.Depicts colorBytes picture' pixels := by
  intro row hrow col hcol k hk
  rw [h row hrow col hcol k hk, heq row hrow col hcol]

theorem Depicts.displays (h : o.Depicts colorBytes picture pixels) {c : ClientScreen}
    (hshows : o.Shows pixels c) : o.Displays colorBytes picture c := by
  intro row hrow col hcol k hk
  rw [← h row hrow col hcol k hk]
  exact (hshows row hrow (col * bpp + k) (byte_spec hcol hk).1).symm

/-- Rectangles outside of which a buffer already shows a picture contain all in which the memory of
the picture differs from it. -/
theorem covers_of_depicts (h : o.Depicts colorBytes picture pixels') {rects : List Rect}
    (hsame : ∀ row < o.height, ∀ col < o.width, ((col : ℤ), (row : ℤ)) ∉ covered rects →
      ∃ before, o.Depicts colorBytes before pixels ∧
        before (col, row) = picture (col, row)) :
    o.Covers rects pixels pixels' := by
  intro row hrow col hcol hdiffer
  by_contra hnot
  have hout : ((col : ℤ), (row : ℤ)) ∉ covered rects := by
    rintro ⟨r, hr, hp⟩
    refine hnot ⟨r, hr, ?_⟩
    rw [mem_pixels] at hp
    unfold Rect.Contains
    omega
  obtain ⟨before, hbefore, heq⟩ := hsame row hrow col hcol hout
  obtain ⟨k, hk, hne⟩ := hdiffer
  refine hne ?_
  rw [hbefore row hrow col hcol k hk, h row hrow col hcol k hk, heq]

end OutputMode

/-! ### The system -/

/-- The display and the frames on their way to the screen; `scenes` are those that were rendered. -/
structure RenderPipeline (S ι κ A C : Type) where
  display : Display ι κ A C
  frames : FrameSystem S
  scenes : List (OutputFrame ι κ A C)

/-- What happens: a scene is rendered, or one of the other events of the frames. -/
inductive PipelineEvent (S ι κ A C : Type) where
  /-- The renderer fails if there is a `failure`; `spare` is what the buffer holds if it was never
  drawn into. -/
  | render (elements : List (RenderElement ι κ A C)) (clearColor : C)
    (failure : Option (ℤ × ℤ → C)) (spare : ℤ × ℤ → C) (padding : ℕ → UInt8) (netAlive : Bool)
  | frame (event : FrameEvent S)

namespace RenderPipeline

/-- A scene on the output: its buffer always holds the frame before. -/
def turn (o : OutputMode) (elements : List (RenderElement ι κ A C)) (clearColor : C)
    (failure : Option (ℤ × ℤ → C)) (spare : ℤ × ℤ → C) : RenderTurn ι κ A C where
  age := 1
  frame := ⟨(o.width, o.height), .normal, elements, clearColor⟩
  failure := failure
  spare := spare
  reread := id

variable [DecidableEq ι] [BEq A] [DecidableEq C] (sort : UnstableSort Rect)
  (nearAll : ℤ → ℤ → Bool) (zstd : Zstd) (o : OutputMode) (desktop : Desktop S)
  (colorBytes : C → ℕ → UInt8)

/-- The damage that is handed on. -/
def damage : RenderOutputResult → Option (List Rect)
  | .rendered damage => some damage
  | .skipped | .renderingError => none

/-- `render_headless_frame`: a render that fails sends nothing. -/
def render (l : RenderPipeline S ι κ A C) (turn : RenderTurn ι κ A C) (padding : ℕ → UInt8)
    (netAlive : Bool) : RenderPipeline S ι κ A C :=
  let (result, _, buffer) := l.display.render sort nearAll turn
  let display := l.display.step sort nearAll turn
  match result with
  | .renderingError =>
    { l with display := display, frames := l.frames.step zstd o desktop .renderFailed }
  | .skipped | .rendered _ =>
    { display := display
      frames := l.frames.step zstd o desktop
        (.render (o.memory colorBytes padding buffer) (damage result) netAlive)
      scenes := turn.frame :: l.scenes }

def step (l : RenderPipeline S ι κ A C) : PipelineEvent S ι κ A C → RenderPipeline S ι κ A C
  | .render elements clearColor failure spare padding netAlive =>
    l.render sort nearAll zstd o desktop colorBytes (turn o elements clearColor failure spare)
      padding netAlive
  | .frame event => { l with frames := l.frames.step zstd o desktop event }

omit [DecidableEq ι] [DecidableEq C] in
/-- The scenes meet the contract of the renderer, and framebuffers have the size of the output. -/
def Admissible (l : RenderPipeline S ι κ A C) : PipelineEvent S ι κ A C → Prop
  | .render elements clearColor failure spare _ _ =>
    l.display.Contract (turn o elements clearColor failure spare)
  | .frame (.serve framebuffer) => framebuffer.length = o.width * bpp * o.height
  | .frame (.render _ _ _) | .frame .renderFailed => False
  | .frame _ => True

end RenderPipeline

/-! ### Where frames come from -/

namespace FrameSystem

variable {P Q : Bytes → Prop} {s : FrameSystem S} {zstd : Zstd} {o : OutputMode}
  {desktop : Desktop S}

/-- The message is a frame. -/
def IsFrame : CompositorToNet → Prop
  | .sendFrame _ | .sendKeyframe _ => True
  | .sendControl _ | .sendAudio _ | .shutdown => False

/-- All frames that are queued or on a screen come from renders with a property. -/
structure Attributed (P : Bytes → Prop) (s : FrameSystem S) : Prop where
  queued : ∀ msg pixels, (msg, pixels) ∈ s.queue → IsFrame msg → P pixels
  shown : ∀ c frame pixels, s.connection = some c → c.shown = some (frame, pixels) → P pixels

theorem Attributed.mono (h : Attributed P s) (hPQ : ∀ pixels, P pixels → Q pixels) :
    Attributed Q s where
  queued msg pixels hin hframe := hPQ _ (h.queued msg pixels hin hframe)
  shown c frame pixels hc hshown := hPQ _ (h.shown c frame pixels hc hshown)

theorem Attributed.applyFrame (h : Attributed P s) {c : FrameConnection} {frame : FrameUpdate}
    {pixels : Bytes} (hpixels : P pixels) : Attributed P (s.applyFrame zstd c frame pixels) := by
  unfold FrameSystem.applyFrame
  cases c.screen.receiveFrame zstd frame with
  | none => exact ⟨h.queued, h.shown⟩
  | some applied =>
    refine ⟨h.queued, fun c' frame' pixels' hc' hshown => ?_⟩
    obtain rfl := Option.some.inj hc'
    obtain ⟨rfl, rfl⟩ := Prod.mk.inj (Option.some.inj hshown)
    exact hpixels

theorem Attributed.pop (h : Attributed P s) : Attributed P (s.pop zstd) := by
  cases hqueue : s.queue with
  | nil =>
    have hpop : s.pop zstd = s := by rw [FrameSystem.pop, hqueue]
    rwa [hpop]
  | cons entry rest =>
    obtain ⟨msg, pixels⟩ := entry
    have hrest : Attributed P { s with queue := rest } :=
      ⟨fun msg' pixels' hin => h.queued msg' pixels' (hqueue ▸ List.mem_cons_of_mem _ hin), h.shown⟩
    have hpixels : IsFrame msg → P pixels := h.queued msg pixels (hqueue ▸ List.mem_cons_self)
    cases hconnection : s.connection with
    | none =>
      have hpop : s.pop zstd = { s with queue := rest } := by
        simp [FrameSystem.pop, hqueue, hconnection]
      rwa [hpop]
    | some c =>
      have hpop : s.pop zstd = forward zstd { s with queue := rest } c pixels msg := by
        simp [FrameSystem.pop, hqueue, hconnection]
      rw [hpop]
      cases msg with
      | sendFrame frame =>
        rw [forward]
        split_ifs
        · exact hrest.applyFrame (hpixels trivial)
        · exact hrest
      | sendKeyframe frame => exact hrest.applyFrame (hpixels trivial)
      | sendControl _ | sendAudio _ => exact hrest
      | shutdown => exact ⟨hrest.queued, fun c _ _ hc => absurd hc (by simp [forward])⟩

theorem Attributed.render (h : Attributed P s) {pixels : Bytes} {damage : Option (List Rect)}
    {netAlive : Bool} (hpixels : P pixels) :
    Attributed P (s.render zstd o pixels damage netAlive) := by
  unfold FrameSystem.render
  cases s.compositor.renderHeadlessFrame zstd o netAlive pixels damage with
  | none => exact ⟨h.queued, h.shown⟩
  | some sent =>
    obtain ⟨compositor, msg⟩ := sent
    refine ⟨fun msg' pixels' hin hframe => ?_, h.shown⟩
    rcases List.mem_append.mp hin with hin | hin
    · exact h.queued msg' pixels' hin hframe
    · obtain ⟨_, -, heq⟩ := List.mem_map.mp hin
      rwa [← (Prod.mk.inj heq).2]

/-- **Every frame comes from a render.** -/
theorem Attributed.step (h : Attributed P s) (event : FrameEvent S)
    (hrender : ∀ pixels damage netAlive, event = .render pixels damage netAlive → P pixels) :
    Attributed P (s.step zstd o desktop event) := by
  cases event with
  | net _ _ | netClosed | cleanup _ _ | dispatch _ | renderFailed => exact ⟨h.queued, h.shown⟩
  | control msg =>
    refine ⟨fun msg' pixels hin hframe => ?_, h.shown⟩
    rcases List.mem_append.mp hin with hin | hin
    · exact h.queued msg' pixels hin hframe
    · obtain ⟨rfl, -⟩ := Prod.mk.inj (List.mem_singleton.mp hin)
      exact hframe.elim
  | render pixels damage netAlive => exact h.render (hrender pixels damage netAlive rfl)
  | serve framebuffer =>
    refine ⟨h.queued, fun c frame pixels hc hshown => ?_⟩
    rw [← Option.some.inj hc] at hshown
    exact absurd hshown (by simp)
  | hangUp => exact ⟨h.queued, fun c _ _ hc => absurd hc (by simp [FrameSystem.step])⟩
  | pop => exact h.pop

/-- A render that can be sent is the last one. -/
theorem rendered_render {pixels : Bytes} {damage : Option (List Rect)} (netAlive : Bool)
    (hlen : pixels.length = o.frameSize) (hinside : DamageInside o damage) :
    (s.render zstd o pixels damage netAlive).rendered = some pixels := by
  obtain ⟨d', msg, hrender, -⟩ := exists_renders zstd s.compositor netAlive hlen hinside
  rw [FrameSystem.render, hrender]

theorem rendered_applyFrame (s : FrameSystem S) (c : FrameConnection) (frame : FrameUpdate)
    (pixels : Bytes) : (s.applyFrame zstd c frame pixels).rendered = s.rendered := by
  unfold FrameSystem.applyFrame
  cases c.screen.receiveFrame zstd frame <;> rfl

/-- Other events leave the last render. -/
theorem rendered_step (s : FrameSystem S) (event : FrameEvent S)
    (hrender : ∀ pixels damage netAlive, event ≠ .render pixels damage netAlive) :
    (s.step zstd o desktop event).rendered = s.rendered := by
  cases event with
  | render pixels damage netAlive => exact absurd rfl (hrender pixels damage netAlive)
  | pop =>
    change (s.pop zstd).rendered = s.rendered
    unfold FrameSystem.pop
    split
    · rfl
    · next msg pixels rest _ =>
      split
      · rfl
      · next c _ =>
        cases msg with
        | sendFrame frame =>
          dsimp only [forward]
          split_ifs
          · exact rendered_applyFrame _ c frame pixels
          · rfl
        | sendKeyframe frame => exact rendered_applyFrame _ c frame pixels
        | sendControl _ | sendAudio _ | shutdown => rfl
  | net _ _ | netClosed | cleanup _ _ | dispatch _ | control _ | renderFailed | serve _ | hangUp =>
    rfl

end FrameSystem

/-! ### The invariant -/

namespace RenderPipeline

open Display DamageTracker

variable [DecidableEq ι] [BEq A] [DecidableEq C] (sort : UnstableSort Rect)
  (nearAll : ℤ → ℤ → Bool) (zstd : Zstd) (o : OutputMode) (desktop : Desktop S)
  (colorBytes : C → ℕ → UInt8)

omit [DecidableEq ι] [BEq A] [DecidableEq C] in
/-- The pixels are those of a scene. -/
def OfScene (scenes : List (OutputFrame ι κ A C)) (pixels : Bytes) : Prop :=
  ∃ scene ∈ scenes, o.Depicts colorBytes scene.composite pixels

omit [BEq A] [DecidableEq C] in
/-- The display and the frames agree: the last render is what the newest buffer shows, and all
frames are those of scenes. -/
structure Linked (l : RenderPipeline S ι κ A C) : Prop where
  display : Synced l.display
  frames : FrameSystem.Linked zstd o l.frames
  memory : ∀ newest, l.display.buffers[0]? = some newest → ∀ before,
    l.frames.rendered = some before → o.Depicts colorBytes newest before
  latest : ∀ before, l.frames.rendered = some before →
    ∃ scene, l.scenes.head? = some scene ∧ o.Depicts colorBytes scene.composite before
  attributed : FrameSystem.Attributed (OfScene o colorBytes l.scenes) l.frames

variable {sort nearAll zstd o desktop colorBytes} {l : RenderPipeline S ι κ A C}
  {turn : RenderTurn ι κ A C}

omit [DecidableEq ι] [BEq A] [DecidableEq C] in
theorem mem_out_iff (hsize : turn.frame.size = ((o.width : ℤ), (o.height : ℤ))) {row col : ℕ}  :
    ((col : ℤ), (row : ℤ)) ∈ turn.frame.out.pixels ↔ row < o.height ∧ col < o.width := by
  rw [mem_pixels, OutputFrame.out, hsize]
  dsimp only
  omega

omit [BEq A] [DecidableEq C] in
/-- **The damage contains all that has changed since the last render**, which is what the frames
rely on. -/
theorem admissible_render (h : Linked zstd o colorBytes l) {damage : List Rect}
    (hsize : turn.frame.size = ((o.width : ℤ), (o.height : ℤ)))
    (hdamage : Drawable turn.frame.out damage)
    (hshows : ∀ p ∈ turn.frame.out.pixels, p ∉ covered damage → l.display.AlreadyShows turn p)
    {pixels : Bytes} (hlength : pixels.length = o.frameSize)
    (hdepicts : o.Depicts colorBytes turn.frame.composite pixels) (netAlive : Bool) :
    FrameSystem.Admissible o l.frames (.render pixels (some damage) netAlive) := by
  refine ⟨hlength, fun rects hrects r hr => ?_, fun rects hrects before hbefore => ?_⟩
  · obtain rfl := Option.some.inj hrects
    obtain ⟨hw, hh, hl, ht, hright, hbottom⟩ := hdamage.within r hr
    rw [OutputFrame.out, hsize] at hl ht hright hbottom
    dsimp only at hl ht hright hbottom
    exact ⟨hl, ht, hw, hh, by omega, by omega⟩
  · obtain rfl := Option.some.inj hrects
    refine OutputMode.covers_of_depicts hdepicts fun row hrow col hcol hnot => ?_
    obtain ⟨newest, hnewest, heq⟩ := hshows _ ((mem_out_iff hsize).mpr ⟨hrow, hcol⟩) hnot
    exact ⟨newest, h.memory newest hnewest before hbefore, heq⟩

/-- **Step lemma**: a render. -/
theorem Linked.render (h : Linked zstd o colorBytes l) (hcontract : l.display.Contract turn)
    (hsize : turn.frame.size = ((o.width : ℤ), (o.height : ℤ))) (padding : ℕ → UInt8)
    (netAlive : Bool) : Linked zstd o colorBytes
      (l.render sort nearAll zstd o desktop colorBytes turn padding netAlive) := by
  have hsynced := Synced.step sort nearAll l.display turn h.display hcontract
  have hturned := turned sort nearAll h.display hcontract
  unfold RenderPipeline.render
  generalize l.display.step sort nearAll turn = display at *
  generalize l.display.render sort nearAll turn = outcome at *
  obtain ⟨result, state, buffer⟩ := outcome
  -- what is sent if the render has not failed
  have hsent : ∀ damage, (∀ p ∈ turn.frame.out.pixels, buffer p = turn.frame.composite p) →
      (∀ newest, display.buffers[0]? = some newest →
        ∀ p ∈ turn.frame.out.pixels, newest p = turn.frame.composite p) →
      (∀ pixels, pixels.length = o.frameSize → o.Depicts colorBytes turn.frame.composite pixels →
        FrameSystem.Admissible o l.frames (.render pixels damage netAlive)) →
      Linked zstd o colorBytes ⟨display, l.frames.step zstd o desktop
        (.render (o.memory colorBytes padding buffer) damage netAlive),
        turn.frame :: l.scenes⟩ := by
    intro damage hbuffer hnewest hadmissible
    have hlength : (o.memory colorBytes padding buffer).length = o.frameSize :=
      OutputMode.length_memory padding buffer
    have hdepicts : o.Depicts colorBytes turn.frame.composite
        (o.memory colorBytes padding buffer) :=
      (OutputMode.depicts_memory padding buffer).congr fun row hrow col hcol =>
        hbuffer _ ((mem_out_iff hsize).mpr ⟨hrow, hcol⟩)
    have hadmissible := hadmissible _ hlength hdepicts
    have hrendered : (l.frames.step zstd o desktop
        (.render (o.memory colorBytes padding buffer) damage netAlive)).rendered =
          some (o.memory colorBytes padding buffer) :=
      FrameSystem.rendered_render netAlive hlength hadmissible.2.1
    refine ⟨hsynced, FrameSystem.linked_step desktop l.frames _ h.frames hadmissible, ?_, ?_, ?_⟩
    · intro newest hfirst before hbefore
      rw [← Option.some.inj (hrendered.symm.trans hbefore)]
      exact hdepicts.congr fun row hrow col hcol =>
        (hnewest newest hfirst _ ((mem_out_iff hsize).mpr ⟨hrow, hcol⟩)).symm
    · intro before hbefore
      rw [← Option.some.inj (hrendered.symm.trans hbefore)]
      exact ⟨turn.frame, rfl, hdepicts⟩
    · have hmono : FrameSystem.Attributed (OfScene o colorBytes (turn.frame :: l.scenes))
          l.frames := h.attributed.mono fun pixels ⟨scene, hscene, hpixels⟩ =>
        ⟨scene, List.mem_cons_of_mem _ hscene, hpixels⟩
      dsimp only
      refine hmono.step _ fun pixels damage netAlive heq => ?_
      obtain ⟨rfl, -, -⟩ := FrameEvent.render.inj heq
      exact ⟨turn.frame, List.mem_cons_self, hdepicts⟩
  cases hturned with
  | skipped _ _ hbuffers hbuffer hshows =>
    refine hsent none hbuffer (fun newest hnewest p hp => ?_) fun pixels hlength _ =>
      ⟨hlength, fun rects hrects => absurd hrects (by simp),
        fun rects hrects => absurd hrects (by simp)⟩
    rw [hbuffers] at hnewest
    obtain ⟨newest', hnewest', heq⟩ := hshows p hp
    rwa [← Option.some.inj (hnewest'.symm.trans hnewest)]
  | renderingError _ _ hbuffers =>
    refine ⟨hsynced, h.frames, fun newest hnewest => ?_, h.latest, h.attributed⟩
    rw [hbuffers] at hnewest
    exact absurd hnewest (by simp)
  | rendered damage _ _ hbuffers hbuffer hdamage hshows =>
    refine hsent (some damage) hbuffer (fun newest hnewest => ?_)
      fun pixels hlength hdepicts =>
        admissible_render h hsize hdamage hshows hlength hdepicts netAlive
    rwa [← Option.some.inj (hbuffers.symm.trans hnewest)]

/-- **Step lemma**: the display and the frames keep agreeing. -/
theorem linked_step (l : RenderPipeline S ι κ A C) (event : PipelineEvent S ι κ A C)
    (h : Linked zstd o colorBytes l) (hadmissible : Admissible o l event) :
    Linked zstd o colorBytes (l.step sort nearAll zstd o desktop colorBytes event) := by
  cases event with
  | render elements clearColor failure spare padding netAlive =>
    exact h.render hadmissible rfl padding netAlive
  | frame event =>
    have hrender : ∀ pixels damage netAlive, event ≠ .render pixels damage netAlive := by
      rintro pixels damage netAlive rfl
      exact hadmissible
    have hframe : FrameSystem.Admissible o l.frames event := by
      cases event with
      | serve framebuffer => exact hadmissible
      | render pixels damage netAlive => exact absurd rfl (hrender pixels damage netAlive)
      | net _ _ | netClosed | cleanup _ _ | dispatch _ | control _ | renderFailed | hangUp | pop =>
        trivial
    have hrendered : (l.frames.step zstd o desktop event).rendered = l.frames.rendered :=
      FrameSystem.rendered_step l.frames event hrender
    refine ⟨h.display, FrameSystem.linked_step desktop l.frames event h.frames hframe, ?_, ?_, ?_⟩
    · intro newest hnewest before hbefore
      exact h.memory newest hnewest before (hrendered.symm.trans hbefore)
    · exact fun before hbefore => h.latest before (hrendered.symm.trans hbefore)
    · exact h.attributed.step event fun pixels damage netAlive heq =>
        absurd heq (hrender pixels damage netAlive)

/-! ### Whole runs -/

variable (sort nearAll desktop) in
/-- **From the scene to the screen**: in every run in which the compositor renders scenes, whose
elements report their damage, handles events, and renders fail, and in which connections come and
go, nothing panics over a frame, and a connection that has seen its keyframe has applied a frame and
its screen shows, byte for byte, the picture of a scene that was rendered; that is the last one if
no frame is queued, a client is connected and no keyframe is due. -/
theorem screen_run (state : S) (cluster : ClusterConfig) (peerRt launcherLinked : Bool)
    (stateDb : Option SessionTable) (clk : Clock) (find : Enumeration (SessionId × SessionRecord))
    (events : List (PipelineEvent S ι κ A C)) :
    let boot : RenderPipeline S ι κ A C :=
      ⟨.new, FrameSystem.boot o state cluster peerRt launcherLinked stateDb clk find, []⟩
    Along (step sort nearAll zstd o desktop colorBytes) (Admissible o) boot events →
      let l := events.foldl (step sort nearAll zstd o desktop colorBytes) boot
      l.frames.panicked = false ∧
        ∀ c, l.frames.connection = some c → c.keyframeSeen = true →
          (∃ scene ∈ l.scenes, o.Displays colorBytes scene.composite c.screen) ∧
            (l.frames.queue = [] → l.frames.compositor.Continues →
              ∃ scene, l.scenes.head? = some scene ∧
                o.Displays colorBytes scene.composite c.screen) := by
  intro boot h l
  have hboot : Linked zstd o colorBytes boot := by
    refine ⟨synced_new,
      FrameSystem.linked_boot state cluster peerRt launcherLinked stateDb clk find,
      fun newest hnewest => absurd hnewest (by simp [boot, new]),
      fun before hbefore => absurd hbefore (by simp [boot, FrameSystem.boot]), ?_, ?_⟩
    · exact fun msg pixels hin => absurd hin List.not_mem_nil
    · exact fun c _ _ hc => absurd hc (by simp [boot, FrameSystem.boot])
  have hlinked : Linked zstd o colorBytes l := h.invariant linked_step hboot
  obtain ⟨base, hqueued, hscreen⟩ := hlinked.frames.linked
  refine ⟨hlinked.frames.alive, fun c hc hseen => ?_⟩
  obtain ⟨frame, pixels, hshown, hbase⟩ := (hscreen c hc).seen hseen
  have hshows := ((hscreen c hc).agrees frame pixels hshown).1
  refine ⟨?_, fun hqueue hcontinues => ?_⟩
  · obtain ⟨scene, hscene, hdepicts⟩ := hlinked.attributed.shown c frame pixels hc hshown
    exact ⟨scene, hscene, hdepicts.displays hshows⟩
  · -- what is on the screen is the last render
    obtain ⟨hrendered, hlast⟩ := hqueued.current hcontinues
    rw [hqueue, lastShown, hbase] at hlast
    obtain ⟨scene, hscene, hdepicts⟩ := hlinked.latest _ hrendered
    exact ⟨scene, hscene, hdepicts.displays (Option.some.inj hlast ▸ hshows)⟩

section Witness

open FrameSystem BorderSystem

/-- A color of a single pixel. -/
def pixel : RenderElement ℕ ℕ Unit ℕ :=
  SolidColorBuffer.element opaqueColors ⟨1, (1, 1), 1, 7⟩ (0, 0)

/-- A client connects and is shown the pixel. -/
def onePixelEvents : List (PipelineEvent Unit ℕ ℕ Unit ℕ) :=
  [.frame (.net CalloopData.quiet (.clientConnected ⟨2, [], some "t"⟩ "c")),
    .frame (.serve [9, 9, 9, 9]), .render [pixel] 0 none (fun _ => 9) (fun _ => 0) true,
    .frame .pop]

theorem admissible_onePixelEvents :
    Along (step (.stable Rect) (fun _ _ => false) rawBlock onePixel CalloopData.nullDesktop
        fun color k => UInt8.ofNat (color + k)) (Admissible onePixel)
      ⟨.new, boot onePixel () ⟨"", "", []⟩ false false none ⟨0, 0⟩ .stored, []⟩ onePixelEvents := by
  refine ⟨trivial, rfl, ⟨?_, fun old hold => absurd hold (by simp [step, new])⟩, trivial, trivial⟩
  refine ⟨by decide, by decide, by decide, by decide, by decide, fun e he => ?_,
    List.nodup_singleton _⟩
  obtain rfl := List.mem_singleton.mp he
  refine sound_element opaqueColors ?_
  constructor <;> decide

/-- The pixel is drawn. -/
theorem render_pixel : (new : Display ℕ ℕ Unit ℕ).render (.stable Rect) (fun _ _ => false)
    (RenderPipeline.turn onePixel [pixel] 0 none fun _ => 9) =
      (.rendered [⟨0, 0, 1, 1⟩],
        DamageTracker.record ⟨(1, 1), .normal, [pixel], 0⟩ [[⟨0, 0, 1, 1⟩]],
        DamageTracker.draw [⟨0, 0, 1, 1⟩] ⟨(1, 1), .normal, [pixel], 0⟩ fun _ => 9) := by
  have hall : DamageTracker.bufferDamage (.default : RendererState ℕ ℕ Unit ℕ) 1
      ⟨(1, 1), .normal, [pixel], 0⟩ = [⟨0, 0, 1, 1⟩] := by decide
  have hcut : ([⟨0, 0, 1, 1⟩] : List Rect).filterMap (fun rect => rect.intersection
      (OutputFrame.mk (1, 1) .normal [pixel] 0).out) = [⟨0, 0, 1, 1⟩] := by decide
  have hdamage : DamageTracker.shapedDamage (.default : RendererState ℕ ℕ Unit ℕ) (.stable Rect)
      (fun _ _ => false) 1 ⟨(1, 1), .normal, [pixel], 0⟩ = [⟨0, 0, 1, 1⟩] := by
    rw [DamageTracker.shapedDamage, hall, hcut, Shaper.shapeDamage, Shaper.shapeDamageImpl]
  change DamageTracker.renderOutput _ _ (.default : RendererState ℕ ℕ Unit ℕ) 1
    ⟨(1, 1), .normal, [pixel], 0⟩ none (fun _ => 9) = _
  simp only [DamageTracker.renderOutput, hdamage]
  rfl

/-- The pixel is on the screen. -/
theorem screen_run_onePixel :
    let l := onePixelEvents.foldl
      (step (.stable Rect) (fun _ _ => false) rawBlock onePixel CalloopData.nullDesktop
        fun color k => UInt8.ofNat (color + k))
      ⟨.new, boot onePixel () ⟨"", "", []⟩ false false none ⟨0, 0⟩ .stored, []⟩
    ∃ c, l.frames.connection = some c ∧ ∃ scene ∈ l.scenes,
      onePixel.Displays (fun color k => UInt8.ofNat (color + k)) scene.composite c.screen := by
  have hrun := screen_run (.stable Rect) (fun _ _ => false) CalloopData.nullDesktop () ⟨"", "", []⟩
    false false none ⟨0, 0⟩ .stored onePixelEvents admissible_onePixelEvents
  obtain ⟨c, hc, hseen⟩ : ∃ c, (onePixelEvents.foldl
      (step (.stable Rect) (fun _ _ => false) rawBlock onePixel CalloopData.nullDesktop
        fun color k => UInt8.ofNat (color + k))
      ⟨.new, boot onePixel () ⟨"", "", []⟩ false false none ⟨0, 0⟩ .stored,
        []⟩).frames.connection = some c ∧ c.keyframeSeen = true := by
    simp only [onePixelEvents, List.foldl_cons, List.foldl_nil, step, render, render_pixel]
    exact ⟨_, rfl, rfl⟩
  exact ⟨c, hc, (hrun.2 c hc hseen).1⟩

end Witness

end RenderPipeline

end WayRay
