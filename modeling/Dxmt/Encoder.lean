import Dxmt.Visibility

/-!
# The encoders of a command buffer: `checkEncoderRelation`

A flush has a list of encoders. `checkEncoderRelation` compares two of them: it may fold the earlier
one into the later one (a clear into the load action of a render pass, a render pass or a blit pass
into the next one), fold the later one into the earlier one (a resolve into the store action),
adjust a store action, or leave both alone. The answer says whether the earlier encoder may be moved
past the later one (`SWAP`) or has to stay before it (`SYNCHRONIZE`).

A texture view is named by its allocation and its key: `cached_view_` has one object for each. The
formats of views are a parameter (`ViewFormats`). Colour attachments are a list of
`render_target_count` entries. An encoder's command stream is a list; the fields that no function
below reads are left out.

Source: `dxmt_context.hpp:96-292`, `dxmt_context.cpp:2684-3074`.
-/

namespace Dxmt

/-- `WMTLoadAction`. -/
inductive WMTLoadAction where
  | dontCare
  | load
  | clear
deriving DecidableEq

/-- `WMTStoreAction`. -/
inductive WMTStoreAction where
  | dontCare
  | store
  | multisampleResolve
  | storeAndMultisampleResolve
  | unknown
  | customSampleDepthStore
deriving DecidableEq

/-- `TextureView`, up to identity. -/
structure TextureView where
  allocation : Nat
  key : Nat
deriving DecidableEq

/-- `pixelFormat(key)` and `checkViewUseFormat(key, format)` of the texture behind an allocation. -/
structure ViewFormats where
  pixelFormat : TextureView → Nat
  checkViewUseFormat : TextureView → Nat → Nat

/-- `RenderEncoderColorAttachmentData`. -/
structure ColorAttachment (Val : Type) where
  attachment : Option TextureView := none
  bufferAttachment : Option Nat := none
  bufferTexture : Option Nat := none
  bufferViewId : Nat := 0
  loadAction : WMTLoadAction
  storeAction : WMTStoreAction
  depthPlane : Nat := 0
  clearColor : Val
  resolveAttachment : Option TextureView := none

/-- `RenderEncoderDepthAttachmentData` and `RenderEncoderStencilAttachmentData`, which differ in the
type of the clear value only. -/
structure PlaneAttachment (Val : Type) where
  attachment : Option TextureView := none
  loadAction : WMTLoadAction
  storeAction : WMTStoreAction
  level : Nat := 0
  slice : Nat := 0
  depthPlane : Nat := 0
  clearValue : Val

/-- `EncoderData`. -/
structure EncoderData where
  fenceWait : FenceSet := ∅
  fenceUpdate : FenceSet := ∅

/-- A render pass: its attachments, its draws and the resources that it uses. -/
structure RenderEncoderData (Draw Val : Type) extends EncoderData, RenderStream Draw where
  colors : List (ColorAttachment Val)
  depth : PlaneAttachment Val
  stencil : PlaneAttachment Val
  renderTargetArrayLength : Nat := 0
  allocatedArgbuf : Nat := 0
  fenceWaitVertex : FenceSet := ∅
  fenceUpdateVertex : FenceSet := ∅
  dsvPlanarFlags : BitVec 8 := 0
  dsvReadonlyFlags : BitVec 8 := 0
  useTessellation : Bool := false
  useGeometry : Bool := false

/-- A blit pass. -/
structure BlitEncoderData (Blit : Type) extends EncoderData where
  cmd : List Blit

/-- `color` and `depthStencil` share their storage in the source. The first one is meant when
`clearDsv` is zero. -/
structure ClearEncoderData (Val : Type) extends EncoderData where
  color : Val
  depthStencil : Val × Val
  attachment : Option TextureView := none
  bufferAttachment : Option Nat := none
  bufferTexture : Option Nat := none
  bufferViewId : Nat := 0
  clearDsv : BitVec 32
  arrayLength : Nat := 0
  level : Nat := 0
  slice : Nat := 0
  depthPlane : Nat := 0
  stencilDepthPlane : Nat := 0

/-- A resolve of one view into another. -/
structure ResolveEncoderData extends EncoderData where
  src : TextureView
  dst : TextureView

/-- An encoder by its `EncoderType`. -/
inductive Encoder (Draw Blit Val : Type) where
  | null
  | render (r : RenderEncoderData Draw Val)
  | compute (e : EncoderData)
  | blit (b : BlitEncoderData Blit)
  | clear (c : ClearEncoderData Val)
  | resolve (r : ResolveEncoderData)
  | present (e : EncoderData)
  | spatialUpscale (e : EncoderData)
  | signalEvent (e : EncoderData)
  | temporalUpscale (e : EncoderData)
  | waitForEvent (e : EncoderData)
  | sampleTimestamp (e : EncoderData)

variable {Draw Blit Val : Type}

namespace Encoder

/-- The encoder has been merged away. -/
def isNull : Encoder Draw Blit Val → Bool
  | null => true
  | _ => false

/-- The encoders that nothing moves past. -/
def isEvent : Encoder Draw Blit Val → Bool
  | signalEvent _ | waitForEvent _ | sampleTimestamp _ => true
  | _ => false

/-- The encoders that the outer loop tries to move. -/
def isMovable : Encoder Draw Blit Val → Bool
  | clear _ | render _ | blit _ => true
  | _ => false

/-- What the encoder waits for at any stage. -/
def waits : Encoder Draw Blit Val → FenceSet
  | null => ∅
  | render r => r.fenceWait.unionOf r.fenceWaitVertex
  | blit b => b.fenceWait
  | clear c => c.fenceWait
  | resolve r => r.fenceWait
  | compute e | present e | spatialUpscale e | signalEvent e | temporalUpscale e | waitForEvent e
  | sampleTimestamp e => e.fenceWait

/-- What the encoder updates at any stage. -/
def updates : Encoder Draw Blit Val → FenceSet
  | null => ∅
  | render r => r.fenceUpdateVertex.unionOf r.fenceUpdate
  | blit b => b.fenceUpdate
  | clear c => c.fenceUpdate
  | resolve r => r.fenceUpdate
  | compute e | present e | spatialUpscale e | signalEvent e | temporalUpscale e | waitForEvent e
  | sampleTimestamp e => e.fenceUpdate

end Encoder

/-- `hasDataDependency`. -/
def hasDataDependency (latter former : Encoder Draw Blit Val) : Bool :=
  former.updates.intersectedWith latter.waits || latter.updates.intersectedWith former.waits

/-- `tryMergeBlitEncoders`, when there is no data dependency. -/
def mergeBlit (former latter : BlitEncoderData Blit) : BlitEncoderData Blit :=
  { latter with
    cmd := former.cmd ++ latter.cmd
    fenceUpdate := latter.fenceUpdate.merge former.fenceUpdate
    fenceWait := (latter.fenceWait.merge former.fenceWait).subtract former.fenceUpdate }

/-! ## Signatures -/

/-- The test of one plane in `isEncoderSignatureMatched`. -/
def isPlaneSignatureMatched (a0 a1 : PlaneAttachment Val) (isReadonly : Bool) : Bool :=
  a0.attachment == a1.attachment && a0.level == a1.level && a0.slice == a1.slice &&
    a0.depthPlane == a1.depthPlane &&
    if isReadonly then a1.loadAction != .clear
    else a0.storeAction == .store && a1.loadAction == .load

/-- The test of one colour slot in `isEncoderSignatureMatched`. -/
def isColorSignatureMatched (a0 a1 : ColorAttachment Val) : Bool :=
  a0.attachment == a1.attachment && a0.bufferAttachment == a1.bufferAttachment &&
    a0.bufferViewId == a1.bufferViewId && a0.depthPlane == a1.depthPlane &&
    ((a0.attachment.isNone && a0.bufferTexture.isNone) ||
      (a0.storeAction == .store && a1.loadAction == .load))

/-- `isEncoderSignatureMatched`: the passes have the same attachments. -/
def isEncoderSignatureMatched (r0 r1 : RenderEncoderData Draw Val) : Bool :=
  r0.colors.length == r1.colors.length &&
    r0.dsvPlanarFlags == r1.dsvPlanarFlags && r0.dsvReadonlyFlags == r1.dsvReadonlyFlags &&
    r0.renderTargetArrayLength == r1.renderTargetArrayLength &&
    (!r0.dsvPlanarFlags[0] || isPlaneSignatureMatched r0.depth r1.depth r0.dsvReadonlyFlags[0]) &&
    (!r0.dsvPlanarFlags[1] ||
      isPlaneSignatureMatched r0.stencil r1.stencil r0.dsvReadonlyFlags[1]) &&
    (List.zipWith isColorSignatureMatched r0.colors r1.colors).all id

/-- The slot of the attachment, if any. -/
def isClearColorSignatureMatched (clear : ClearEncoderData Val)
    (render : RenderEncoderData Draw Val) : Option Nat :=
  render.colors.findIdx? fun a =>
    a.attachment == clear.attachment ||
      (a.bufferAttachment.isSome && a.bufferAttachment == clear.bufferAttachment &&
        a.bufferViewId == clear.bufferViewId)

/-- The clear clears the depth attachment of the pass. -/
def isClearDepthSignatureMatched (clear : ClearEncoderData Val)
    (render : RenderEncoderData Draw Val) : Bool :=
  clear.clearDsv[0] && render.depth.attachment == clear.attachment &&
    render.depth.level == clear.level && render.depth.slice == clear.slice &&
    render.depth.depthPlane == clear.depthPlane

/-- The clear clears the stencil attachment of the pass. -/
def isClearStencilSignatureMatched (clear : ClearEncoderData Val)
    (render : RenderEncoderData Draw Val) : Bool :=
  clear.clearDsv[1] && render.stencil.attachment == clear.attachment &&
    render.stencil.level == clear.level && render.stencil.slice == clear.slice &&
    render.stencil.depthPlane == clear.stencilDepthPlane

/-- The view to resolve a colour attachment to, if it is the source of the resolve. -/
def resolveTarget (formats : ViewFormats) (resolve : ResolveEncoderData)
    (color : ColorAttachment Val) : Option TextureView :=
  match color.attachment with
  | none => none
  | some view =>
    if color.storeAction ≠ .store ∨ color.resolveAttachment ≠ none ∨
        view.allocation ≠ resolve.src.allocation then
      none
    else if view.key = resolve.src.key then
      some resolve.dst
    else if view.key = formats.checkViewUseFormat resolve.src (formats.pixelFormat view) then
      some ⟨resolve.dst.allocation,
        formats.checkViewUseFormat resolve.dst (formats.pixelFormat view)⟩
    else
      none

/-- The slot of the first matching attachment, and the view to resolve it to. -/
def isResolveSignatureMatched (formats : ViewFormats) (render : RenderEncoderData Draw Val)
    (resolve : ResolveEncoderData) : Option (Nat × TextureView) :=
  (render.colors.findIdx? fun color => (resolveTarget formats resolve color).isSome).bind fun i =>
    (render.colors[i]?.bind (resolveTarget formats resolve)).map fun dst => (i, dst)

/-! ## Merges -/

/-- The fences of a render encoder that takes over a clear or a resolve. -/
def takeFences (render : RenderEncoderData Draw Val) (other : EncoderData) :
    RenderEncoderData Draw Val :=
  { render with
    fenceUpdate := render.fenceUpdate.merge other.fenceUpdate
    fenceWait := (render.fenceWait.merge other.fenceWait).subtract other.fenceUpdate }

/-- The load action of a plane that was cleared before the pass. -/
def clearPlane (a : PlaneAttachment Val) (v : Val) : PlaneAttachment Val :=
  if a.loadAction = .load then { a with clearValue := v, loadAction := .clear } else a

/-- The load action of a color attachment that was cleared before the pass. -/
def clearColorSlot (a : ColorAttachment Val) (v : Val) : ColorAttachment Val :=
  if a.loadAction = .load then { a with loadAction := .clear, clearColor := v } else a

/-- A depth-stencil clear before a pass with the same planes: what is left of the clear, and the
pass with the planes cleared. -/
def foldClearDepthStencil (clear : ClearEncoderData Val) (render : RenderEncoderData Draw Val) :
    ClearEncoderData Val × RenderEncoderData Draw Val :=
  let (clear, render) :=
    if isClearDepthSignatureMatched clear render then
      ({ clear with clearDsv := clear.clearDsv &&& ~~~1 },
        { render with depth := clearPlane render.depth clear.depthStencil.1 })
    else (clear, render)
  if isClearStencilSignatureMatched clear render then
    ({ clear with clearDsv := clear.clearDsv &&& ~~~2 },
      { render with stencil := clearPlane render.stencil clear.depthStencil.2 })
  else (clear, render)

/-- A pass before a clear: what is cleared anyway need not be stored. -/
def discardCleared (render : RenderEncoderData Draw Val) (clear : ClearEncoderData Val) :
    RenderEncoderData Draw Val :=
  let render :=
    if clear.clearDsv[0] && render.depth.attachment == clear.attachment then
      { render with depth := { render.depth with storeAction := .dontCare } }
    else render
  if clear.clearDsv[1] && render.stencil.attachment == clear.attachment then
    { render with stencil := { render.stencil with storeAction := .dontCare } }
  else render

/-- A colour attachment that is also resolved at the end of the pass. -/
def foldResolve (render : RenderEncoderData Draw Val) (i : Nat) (dst : TextureView) :
    RenderEncoderData Draw Val :=
  { render with
    colors := render.colors.modify i fun a =>
      { a with storeAction := .storeAndMultisampleResolve, resolveAttachment := some dst } }

/-- `appendRenderArgumentBufferBindings`. -/
def renderArgumentBufferBindings (buffer : Nat) (useGeometry useTessellation : Bool) :
    List (RenderCommand Draw) :=
  [.setBuffer .vertex buffer 16, .setBuffer .vertex buffer 29, .setBuffer .vertex buffer 30,
    .setBuffer .fragment buffer 29, .setBuffer .fragment buffer 30] ++
  if useGeometry || useTessellation then
    [.setBuffer .object buffer 16, .setBuffer .object buffer 21] ++
    (if useTessellation then [.setBuffer .object buffer 27, .setBuffer .object buffer 28]
    else []) ++
    [.setBuffer .object buffer 29, .setBuffer .object buffer 30, .setBuffer .mesh buffer 29,
      .setBuffer .mesh buffer 30]
  else []

/-- The commands of `r0` and `r1` in one encoder, each with its own argument buffer. -/
def mergeCommands (r0 r1 : RenderEncoderData Draw Val) : List (RenderCommand Draw) :=
  if r0.cmd.isEmpty then
    r1.cmd
  else if r0.allocatedArgbuf ≠ r1.allocatedArgbuf then
    renderArgumentBufferBindings r0.allocatedArgbuf r0.useGeometry r0.useTessellation ++ r0.cmd ++
      renderArgumentBufferBindings r1.allocatedArgbuf r1.useGeometry r1.useTessellation ++ r1.cmd
  else
    r0.cmd ++ r1.cmd

/-- A plane of `r1` after the merge. -/
def mergePlane (a0 a1 : PlaneAttachment Val) : PlaneAttachment Val :=
  { a1 with
    loadAction := a0.loadAction
    clearValue := a0.clearValue
    storeAction := a0.storeAction
    level := a0.level
    slice := a0.slice
    depthPlane := a0.depthPlane }

/-- The render pass `r1` with `r0` prepended. -/
def mergeRender (r0 r1 : RenderEncoderData Draw Val) : RenderEncoderData Draw Val :=
  { r1 with
    colors := List.zipWith (fun a0 a1 =>
      { a1 with loadAction := a0.loadAction, clearColor := a0.clearColor }) r0.colors r1.colors
    depth := mergePlane r0.depth r1.depth
    stencil := mergePlane r0.stencil r1.stencil
    cmd := mergeCommands r0 r1
    useTessellation := r0.useTessellation || r1.useTessellation
    useGeometry := r0.useGeometry || r1.useGeometry
    useVisibilityResult := r0.useVisibilityResult || r1.useVisibilityResult
    fenceUpdate := r1.fenceUpdate.merge r0.fenceUpdate
    fenceUpdateVertex := r1.fenceUpdateVertex.merge r0.fenceUpdateVertex
    fenceWaitVertex := (r1.fenceWaitVertex.merge r0.fenceWaitVertex).subtract r0.fenceUpdateVertex
    -- "just in case"
    fenceWait := ((r1.fenceWait.merge r0.fenceWait).subtract r0.fenceUpdate).subtract
      r0.fenceUpdateVertex }

/-! ## `checkEncoderRelation` -/

/-- `DXMT_ENCODER_LIST_OP`. -/
inductive EncoderListOp where
  | swap
  | synchronize
deriving DecidableEq

/-- The answer when nothing else was done. -/
def dependencyOp (former latter : Encoder Draw Blit Val) : EncoderListOp :=
  if hasDataDependency latter former then .synchronize else .swap

/-- A clear before a render pass. -/
def checkClearRender (clear : ClearEncoderData Val) (render : RenderEncoderData Draw Val) :
    EncoderListOp × Encoder Draw Blit Val × Encoder Draw Blit Val :=
  if render.renderTargetArrayLength ≠ clear.arrayLength then
    (dependencyOp (.clear clear : Encoder Draw Blit Val) (.render render), .clear clear,
      .render render)
  else if clear.clearDsv ≠ 0 then
    let (clear', render) := foldClearDepthStencil clear render
    if clear'.clearDsv = 0 then
      (.synchronize, .null, .render (takeFences render clear.toEncoderData))
    else
      (dependencyOp (.clear clear' : Encoder Draw Blit Val) (.render render), .clear clear',
        .render render)
  else
    match isClearColorSignatureMatched clear render with
    | some i =>
      (.synchronize, .null, .render (takeFences
        { render with colors := render.colors.modify i fun a => clearColorSlot a clear.color }
        clear.toEncoderData))
    | none =>
      (dependencyOp (.clear clear : Encoder Draw Blit Val) (.render render), .clear clear,
        .render render)

/-- A render pass before a resolve. -/
def checkRenderResolve (formats : ViewFormats) (render : RenderEncoderData Draw Val)
    (resolve : ResolveEncoderData) :
    EncoderListOp × Encoder Draw Blit Val × Encoder Draw Blit Val :=
  match isResolveSignatureMatched formats render resolve with
  | some (i, dst) =>
    (.swap, .render (takeFences (foldResolve render i dst) resolve.toEncoderData), .null)
  | none =>
    (dependencyOp (.render render : Encoder Draw Blit Val) (.resolve resolve), .render render,
      .resolve resolve)

/-- The guard of the merge of two render passes. -/
def canMergeRender (r0 r1 : RenderEncoderData Draw Val) : Bool :=
  isEncoderSignatureMatched r0 r1 && !r1.fenceWaitVertex.intersectedWith r0.fenceUpdate

/-- A render pass before a render pass. -/
def checkRenderRender (r0 r1 : RenderEncoderData Draw Val) :
    EncoderListOp × Encoder Draw Blit Val × Encoder Draw Blit Val :=
  if canMergeRender r0 r1 then
    (.synchronize, .null, .render (mergeRender r0 r1))
  else
    (dependencyOp (.render r0 : Encoder Draw Blit Val) (.render r1), .render r0, .render r1)

/-- `checkEncoderRelation`: the answer, and the two encoders afterwards. -/
def checkEncoderRelation (formats : ViewFormats) (former latter : Encoder Draw Blit Val) :
    EncoderListOp × Encoder Draw Blit Val × Encoder Draw Blit Val :=
  if former.isNull || latter.isNull then
    (.swap, former, latter)
  else if former.isEvent || latter.isEvent then
    (.synchronize, former, latter)
  else
    match former, latter with
    | .blit f, .blit l =>
      if hasDataDependency latter former then (.synchronize, former, latter)
      else (.swap, .null, .blit (mergeBlit f l))
    | .clear clear, .render render => checkClearRender clear render
    | .render render, .clear clear =>
      (dependencyOp (.render (discardCleared render clear)) latter,
        .render (discardCleared render clear), latter)
    | .render render, .resolve resolve => checkRenderResolve formats render resolve
    | .render r0, .render r1 => checkRenderRender r0 r1
    | _, _ => (dependencyOp former latter, former, latter)

/-! ## The loop -/

/-- A place of the encoder list: the encoder in it, and the numbers of the encoders of the original
list whose work it carries, which the source does not record. -/
structure Place (Draw Blit Val : Type) where
  encoder : Encoder Draw Blit Val
  carried : List Nat

/-- `checkEncoderRelation` on two places. An encoder that becomes `Null` has handed its work over.
-/
def Place.check (formats : ViewFormats) (former latter : Place Draw Blit Val) :
    EncoderListOp × Place Draw Blit Val × Place Draw Blit Val :=
  let (op, f, l) := checkEncoderRelation formats former.encoder latter.encoder
  if f.isNull then
    (op, ⟨f, []⟩, ⟨l, former.carried ++ latter.carried⟩)
  else if l.isNull then
    (op, ⟨f, former.carried ++ latter.carried⟩, ⟨l, []⟩)
  else
    (op, ⟨f, former.carried⟩, ⟨l, latter.carried⟩)

/-- The inner loop of `flushCommands`: `former` against the places after it. -/
def moveDown (formats : ViewFormats) (former : Place Draw Blit Val) :
    List (Place Draw Blit Val) → Place Draw Blit Val × List (Place Draw Blit Val)
  | [] => (former, [])
  | latter :: rest =>
    if latter.encoder.isNull then
      let (former, rest) := moveDown formats former rest
      (former, latter :: rest)
    else
      match former.check formats latter with
      | (.synchronize, former, latter) => (former, latter :: rest)
      | (.swap, former, latter) =>
        let (former, rest) := moveDown formats former rest
        (former, latter :: rest)

/-- The outer loop, from the end of the list to its start. -/
def optimize (formats : ViewFormats) : List (Place Draw Blit Val) → List (Place Draw Blit Val)
  | [] => []
  | former :: rest =>
    if former.encoder.isMovable then
      let (former, rest) := moveDown formats former (optimize formats rest)
      former :: rest
    else
      former :: optimize formats rest

/-- A call of `checkEncoderRelation` in the loop, with the places that `former` has been moved past.
-/
structure Call (Draw Blit Val : Type) where
  former : Place Draw Blit Val
  passed : List (Place Draw Blit Val)
  latter : Place Draw Blit Val

/-- The calls of the inner loop. -/
def callsFrom (formats : ViewFormats) (former : Place Draw Blit Val)
    (passed : List (Place Draw Blit Val)) : List (Place Draw Blit Val) → List (Call Draw Blit Val)
  | [] => []
  | latter :: rest =>
    if latter.encoder.isNull then
      callsFrom formats former (passed ++ [latter]) rest
    else
      ⟨former, passed, latter⟩ ::
        match former.check formats latter with
        | (.synchronize, _, _) => []
        | (.swap, former, latter) => callsFrom formats former (passed ++ [latter]) rest

/-- The calls of the outer loop. -/
def calls (formats : ViewFormats) : List (Place Draw Blit Val) → List (Call Draw Blit Val)
  | [] => []
  | former :: rest =>
    calls formats rest ++
      if former.encoder.isMovable then callsFrom formats former [] (optimize formats rest) else []

/-- The encoder list at the start of the flush. -/
def places (es : List (Encoder Draw Blit Val)) : List (Place Draw Blit Val) :=
  es.zipIdx.map fun e => ⟨e.1, [e.2]⟩

end Dxmt
