import Dxmt.DxilArguments

/-!
# Slots and tables of a DXIL shader

When the slots that `BuildDxilShaderInfo` gives out stay apart and in the share of a stage, and when
its tables agree with the encoder. The slots are places allocated by preference, one for each
resource, though a resource with an array uses as many as the array has registers.
-/

namespace Dxmt

namespace ArgumentTable

open FrontEnds FirstFree

variable {rs : List ResourceInfo} {r : ResourceInfo} {st : DxilBuild} {cbuffer : Bool}

/-! ## Tables -/

/-- SRVs and UAVs whose flags say what their fields are. -/
def KindsAgree (rs : List ResourceInfo) : Prop :=
  ∀ r ∈ rs, r.resourceClass = .srv ∨ r.resourceClass = .uav → r.KindAgrees

theorem ResourceInfo.flags_buffer (hclass : r.resourceClass = .srv ∨ r.resourceClass = .uav) :
    r.flags.buffer = r.isBufferResource ∧ r.flags.texture = !r.isBufferResource := by
  rcases hclass with hclass | hclass <;> cases hbuffer : r.isBufferResource <;>
    simp [flags, hclass, hbuffer, bufferArgumentFlags, textureArgumentFlags]

theorem ResourceInfo.flags_uavCounter (hclass : r.resourceClass = .uav) :
    r.flags.uavCounter = r.counter := by
  cases hbuffer : r.isBufferResource <;>
    simp [flags, hclass, hbuffer, bufferArgumentFlags, textureArgumentFlags]

theorem covers_dxilConstantBuffer (hin : r.inTable true = true) (info : RangeInfo) :
    (Item.mk r.key (r.argument info) (st.block r)).Covers encodeConstantBuffer := by
  have hclass : r.resourceClass = .cbv := by simpa [ResourceInfo.inTable, isCbv] using hin
  simp only [ResourceInfo.key, DxilBuild.block, hclass]
  exact covers_cbv _ _ _

theorem covers_dxilResource (hin : r.inTable false = true)
    (hkind : r.resourceClass = .srv ∨ r.resourceClass = .uav → r.KindAgrees) (info : RangeInfo) :
    (Item.mk r.key (r.argument info) (st.block r)).Covers encodeShaderResource := by
  have hfield : (r.resourceClass = .srv ∨ r.resourceClass = .uav) →
      r.fieldType = if (r.argument info).flags.buffer then .buffer else .texture := by
    intro hclass
    simp only [ResourceInfo.argument, (ResourceInfo.flags_buffer hclass).1]
    exact r.kindAgrees_iff.mp (hkind hclass)
  cases hclass : r.resourceClass with
  | sampler =>
    simp only [ResourceInfo.key, DxilBuild.block, hclass]
    exact covers_sampler hclass _ _
  | srv =>
    simp only [DxilBuild.block, hclass]
    refine covers_view (Or.inl hclass) (hfield (Or.inl hclass)) ?_
    intro htype
    cases hclass.symm.trans htype
  | uav =>
    simp only [DxilBuild.block, hclass]
    exact covers_view (Or.inr hclass) (hfield (Or.inr hclass)) fun _ =>
        ResourceInfo.flags_uavCounter hclass
  | cbv => simp [ResourceInfo.inTable, isArgument, hclass] at hin
  | unknown => simp [ResourceInfo.inTable, isArgument, hclass] at hin

/-! ## The space reserved -/

theorem le_argumentTableQwords {arguments : List Argument} {arg : Argument} (h : arg ∈ arguments) :
    arg.structurePtrOffset + qwordCount arg ≤ argumentTableQwords arguments := by
  have hmono : ∀ (arguments : List Argument) (start : Nat),
      start ≤ arguments.foldl (fun qwords arg => max qwords (arg.structurePtrOffset +
        qwordCount arg)) start := by
    intro arguments
    induction arguments with
    | nil => exact fun _ => le_rfl
    | cons first arguments ih => exact fun start => (le_max_left _ _).trans (ih _)
  unfold argumentTableQwords
  generalize 0 = start
  induction arguments generalizing start with
  | nil => cases h
  | cons first arguments ih =>
    rcases List.mem_cons.mp h with rfl | h
    · exact (le_max_right _ _).trans (hmono _ _)
    · exact ih h _

/-- What is written for an argument is within the fields counted for it. -/
theorem lt_qwordCount (info : RangeInfo) {binding : Binding} {w : Nat × Word}
    (hw : w ∈ encodeShaderResource (r.argument info) binding) :
    w.1 < info.argIndex + qwordCount (r.argument info) := by
  have hview : ∀ dummy, (r.resourceClass = .srv ∨ r.resourceClass = .uav) →
      w ∈ encodeView (r.argument info) binding dummy → w.1 < info.argIndex +
        qwordCount (r.argument info) := by
    intro dummy hclass hw
    have htwo : 2 ≤ qwordCount (r.argument info) := by
      obtain ⟨hbuffer, htexture⟩ := ResourceInfo.flags_buffer hclass
      unfold qwordCount
      cases hb : r.isBufferResource <;> cases hcounter : r.flags.uavCounter <;>
        rcases hclass with hclass | hclass <;>
        simp [ResourceInfo.argument, hclass, hbuffer, htexture, hb, hcounter]
    rcases mem_encodeView hw with ⟨hindex, -⟩ | ⟨hindex, -⟩
    · simp only [ResourceInfo.argument] at hindex
      omega
    · simp only [ResourceInfo.argument] at hindex
      omega
  cases hclass : r.resourceClass with
  | sampler =>
    have hthree : qwordCount (r.argument info) = 3 := by
      simp [qwordCount, ResourceInfo.argument, ResourceInfo.flags, hclass]
    rw [encode_sampler hclass binding, encodeSampler] at hw
    rw [hthree]
    split at hw
    all_goals
      simp only [List.mem_cons, List.not_mem_nil, or_false] at hw
      rcases hw with rfl | rfl | rfl <;> simp [ResourceInfo.argument]
  | srv =>
    rw [encode_srv hclass binding] at hw
    exact hview _ (Or.inl hclass) hw
  | uav =>
    rw [encode_uav hclass binding, List.mem_append] at hw
    rcases hw with hw | hw
    · exact hview none (Or.inr hclass) hw
    · obtain ⟨hcounter, rfl⟩ := mem_encodeCounter hw
      have hthree : 3 ≤ qwordCount (r.argument info) := by
        unfold qwordCount
        rw [if_pos hcounter]
        exact le_max_right _ _
      simp only [ResourceInfo.argument] at hthree ⊢
      omega
  | cbv =>
    simp [encodeShaderResource, ResourceInfo.argument, hclass] at hw
  | unknown =>
    simp [encodeShaderResource, ResourceInfo.argument, hclass] at hw

/-! ## When the tables agree -/

open DxilBuild

/-- The resources that have a class have different keys: no two of one class have the same number.
-/
def DistinctIds (rs : List ResourceInfo) : Prop := (keys rs).Nodup

theorem placed_from_init (cbuffer : Bool) (rs : List ResourceInfo) :
    Placed 0 (items cbuffer DxilBuild.init rs) := by
  have h := placed_items cbuffer DxilBuild.init rs
  cases cbuffer <;> exact h

theorem dxilConstantBuffers_eq (h : DistinctIds rs) :
    dxilConstantBuffers rs =
      ⟨blocks (items true DxilBuild.init rs),
        (items true DxilBuild.init rs).map fun item => (item.key, item.argument),
        (items true DxilBuild.init rs).length⟩ := by
  have harguments : dxilArguments rs isCbv =
      (items true DxilBuild.init rs).map fun item => (item.key, item.argument) :=
    lookups_eq true DxilBuild.init h
  have hfields : (buildDxilShaderInfo rs).bindingTableCbuffer =
      blocks (items true DxilBuild.init rs) :=
    run_table true DxilBuild.init rs
  rw [dxilConstantBuffers, harguments, hfields, List.length_map]

theorem dxilResources_eq (h : DistinctIds rs) :
    dxilResources rs =
      ⟨blocks (items false DxilBuild.init rs),
        (items false DxilBuild.init rs).map fun item => (item.key, item.argument),
        argumentTableQwords ((items false DxilBuild.init rs).map Item.argument)⟩ := by
  have harguments : dxilArguments rs isArgument =
      (items false DxilBuild.init rs).map fun item => (item.key, item.argument) :=
    lookups_eq false DxilBuild.init h
  have hfields : (buildDxilShaderInfo rs).bindingTable = blocks (items false DxilBuild.init rs) :=
    run_table false DxilBuild.init rs
  rw [dxilResources, harguments, hfields, List.map_map]
  rfl

/-- The first field of an SRV or UAV. -/
theorem block_resource (hclass : r.resourceClass = .srv ∨ r.resourceClass = .uav) :
    (st.block r)[0]? = some
      ⟨r.fieldType, ⟨r.resourceClass, r.id, .resource⟩, getArgumentIndex r.resourceClass
        (st.slot r)⟩ := by
  rcases hclass with hclass | hclass <;> simp [DxilBuild.block, hclass, viewBlock, ResourceInfo.key]

/-- Every constant buffer has one field. -/
theorem length_blocks_cbv : (blocks (items true st rs)).length = (items true st rs).length := by
  have hone : ∀ item ∈ items true st rs, item.block.length = 1 := by
    intro item hitem
    obtain ⟨r, -, st', hin, rfl⟩ := mem_items hitem
    have hclass : r.resourceClass = .cbv := by simpa [ResourceInfo.inTable, isCbv] using hin
    simp [DxilBuild.block, hclass, cbvBlock]
  unfold blocks
  generalize items true st rs = l at hone
  induction l with
  | nil => rfl
  | cons item l ih =>
    have hhead := hone item List.mem_cons_self
    have htail := ih fun item' hitem' => hone item' (List.mem_cons_of_mem _ hitem')
    rw [List.flatMap_cons, List.length_append, hhead, htail, List.length_cons, Nat.add_comm]

theorem dxilConstantBuffers_agrees (h : DistinctIds rs) :
    (dxilConstantBuffers rs).Agrees encodeConstantBuffer := by
  have hplaced := placed_from_init true rs
  have hcovers : ∀ item ∈ items true DxilBuild.init rs, item.Covers encodeConstantBuffer := by
    intro item hitem
    obtain ⟨r, -, st', hin, rfl⟩ := mem_items hitem
    exact covers_dxilConstantBuffer hin _
  rw [dxilConstantBuffers_eq h]
  refine agrees_of_placed hplaced hcovers ?_
  intro item hitem binding w hw
  have hbounds := (hcovers item hitem).bounds hw
  have hend := hplaced.end_le hitem
  rw [length_blocks_cbv] at hend
  omega

theorem dxilResources_agrees (h : DistinctIds rs) (hkinds : KindsAgree rs) :
    (dxilResources rs).Agrees encodeShaderResource := by
  rw [dxilResources_eq h]
  refine agrees_of_placed (placed_from_init false rs) ?_ ?_
  · intro item hitem
    obtain ⟨r, hr, st', hin, rfl⟩ := mem_items hitem
    exact covers_dxilResource hin (hkinds r hr) _
  · intro item hitem binding w hw
    have hle := le_argumentTableQwords (List.mem_map_of_mem (f := Item.argument) hitem)
    obtain ⟨r, hr, st', hin, rfl⟩ := mem_items hitem
    exact (lt_qwordCount _ hw).trans_le hle

/-- A constant buffer's argument and any other one have a word at their offset. -/
theorem exists_word_cbv (arg : Argument) (binding : Binding) :
    ∃ w ∈ encodeConstantBuffer arg binding, w.1 = arg.structurePtrOffset := by
  unfold encodeConstantBuffer
  split <;> exact ⟨_, List.mem_singleton_self _, rfl⟩

theorem exists_word_resource (hin : r.inTable false = true) (info : RangeInfo) (binding : Binding) :
    ∃ w ∈ encodeShaderResource (r.argument info) binding, w.1 = info.argIndex := by
  have hflags : (r.resourceClass = .srv ∨ r.resourceClass = .uav) →
      (r.argument info).flags.buffer = true ∨ (r.argument info).flags.texture = true := by
    intro hclass
    obtain ⟨hbuffer, htexture⟩ := ResourceInfo.flags_buffer hclass
    cases hb : r.isBufferResource <;> simp [ResourceInfo.argument, hbuffer, htexture, hb]
  cases hclass : r.resourceClass with
  | sampler =>
    rw [encode_sampler hclass binding, encodeSampler]
    split <;> exact ⟨_, List.mem_cons_self, rfl⟩
  | srv =>
    rw [encode_srv hclass binding]
    obtain ⟨w, hw, hindex, -⟩ :=
        exists_mem_encodeView (hflags (Or.inl hclass)) binding binding.dummyTexture
    exact ⟨w, hw, hindex⟩
  | uav =>
    rw [encode_uav hclass binding]
    obtain ⟨w, hw, hindex, -⟩ := exists_mem_encodeView (hflags (Or.inr hclass)) binding none
    exact ⟨w, List.mem_append_left _ hw, hindex⟩
  | cbv => simp [ResourceInfo.inTable, isArgument, hclass] at hin
  | unknown => simp [ResourceInfo.inTable, isArgument, hclass] at hin

/-- In tables that agree two resources of one table have different keys: otherwise both arguments
have the fields of the later one. -/
theorem pairwise_ne_of_apart (cbuffer : Bool) {encode : Argument → Binding → List (Nat × Word)}
    (hword : ∀ r : ResourceInfo, r.inTable cbuffer = true → ∀ info binding,
      ∃ w ∈ encode (r.argument info) binding, w.1 = info.argIndex)
    (hapart : (rs.filterMap fun r =>
      if r.inTable cbuffer then
        ((DxilBuild.init.run rs).maps r.resourceClass r.id).map fun info => (r.key, r.argument info)
      else none).Pairwise fun a a' => ∀ binding binding', WritesApart (encode a.2 binding)
        (encode a'.2 binding')) :
    rs.Pairwise fun r r' => r.inTable cbuffer = true → r'.inTable cbuffer = true →
      r.key ≠ r'.key := by
  rw [List.pairwise_filterMap] at hapart
  refine hapart.imp_of_mem ?_
  intro r r' hr hr' h hin hin' hkey
  have hclass : r.resourceClass = r'.resourceClass := congrArg ResourceKey.resourceClass hkey
  have hid : r.id = r'.id := congrArg ResourceKey.id hkey
  obtain ⟨info, hinfo⟩ := Option.isSome_iff_exists.mp
    (run_maps_isSome DxilBuild.init hr (ResourceInfo.known_of_inTable hin))
  have hinfo' : (DxilBuild.init.run rs).maps r'.resourceClass r'.id = some info :=
    hclass ▸ hid ▸ hinfo
  have happly := h (r.key, r.argument info) (by simp [hin, hinfo]) (r'.key, r'.argument info)
    (by simp [hin', hinfo'])
  let binding : Binding := ⟨none, none, none, none, none, 0, 0⟩
  obtain ⟨w, hw, hindex⟩ := hword r hin info binding
  obtain ⟨w', hw', hindex'⟩ := hword r' hin' info binding
  exact happly binding binding w hw w' hw' (hindex.trans hindex'.symm)

theorem distinctIds_of_agrees (hcbv : (dxilConstantBuffers rs).Agrees encodeConstantBuffer)
    (hres : (dxilResources rs).Agrees encodeShaderResource) : DistinctIds rs := by
  have hcbv' := pairwise_ne_of_apart true (fun r _ info binding => exists_word_cbv _ _) hcbv.apart
  have hres' := pairwise_ne_of_apart false
    (fun r hin info binding => exists_word_resource hin info binding) hres.apart
  unfold DistinctIds keys List.Nodup
  rw [List.pairwise_map, List.pairwise_filter]
  refine (hcbv'.and hres').imp ?_
  rintro r r' ⟨hne, hne'⟩ hknown hknown' hkey
  have hclass : r.resourceClass = r'.resourceClass := congrArg ResourceKey.resourceClass hkey
  have hin := (of_decide_eq_true hknown).inTable
  have hin' := (of_decide_eq_true hknown').inTable
  rw [← hclass] at hin'
  cases hcbuffer : isCbv r.resourceClass with
  | true => exact hne (hcbuffer ▸ hin) (hcbuffer ▸ hin') hkey
  | false => exact hne' (hcbuffer ▸ hin) (hcbuffer ▸ hin') hkey

theorem exists_item (st : DxilBuild) (hr : r ∈ rs) (hin : r.inTable cbuffer = true) :
    ∃ st' : DxilBuild, (⟨r.key, r.argument (st'.entry r), st'.block r⟩ : Item) ∈ items
      cbuffer st rs := by
  induction rs generalizing st with
  | nil => cases hr
  | cons first rs ih =>
    rw [items]
    rcases List.mem_cons.mp hr with rfl | hr
    · exact ⟨st, List.mem_append_left _ (by simp [hin])⟩
    · obtain ⟨st', hmem⟩ := ih (st.buildResource first) hr
      exact ⟨st', List.mem_append_right _ hmem⟩

/-- In a table that agrees the field of an SRV or UAV is what the flags say. -/
theorem kindsAgree_of_agrees (h : DistinctIds rs)
    (hres : (dxilResources rs).Agrees encodeShaderResource) :
    KindsAgree rs := by
  intro r hr hclass
  have hin : r.inTable false = true := by
    rcases hclass with hclass | hclass <;> simp [ResourceInfo.inTable, isArgument, hclass]
  obtain ⟨st', hitem⟩ := exists_item DxilBuild.init hr hin
  have hflags : (r.argument (st'.entry r)).flags.buffer = true ∨
      (r.argument (st'.entry r)).flags.texture = true := by
    obtain ⟨hbuffer, htexture⟩ := ResourceInfo.flags_buffer hclass
    cases hb : r.isBufferResource <;> simp [ResourceInfo.argument, hbuffer, htexture, hb]
  let binding : Binding := ⟨none, none, none, none, none, 0, 0⟩
  obtain ⟨w, hw, hindex, htype⟩ := exists_mem_encodeView hflags binding none
  have hw' : w ∈ encodeShaderResource (r.argument (st'.entry r)) binding := by
    rcases hclass with hclass | hclass
    · rwa [encode_srv hclass]
    · rw [encode_uav hclass]
      exact List.mem_append_left _ hw
  rw [dxilResources_eq h] at hres
  obtain ⟨-, field, hfield, -, -, htakes⟩ :=
    hres.into _ (List.mem_map_of_mem (f := fun item : Item => (item.key, item.argument)) hitem)
      binding w hw'
  -- the same field as its block has it
  have hblock := Placed.getElem? [] (placed_from_init false rs) hitem (block_resource hclass)
  rw [List.nil_append, Nat.add_zero, ← hindex] at hblock
  have heq := Option.some.inj (hfield.symm.trans hblock)
  have hfieldType := htype field htakes
  rw [heq] at hfieldType
  rw [ResourceInfo.kindAgrees_iff, ← (ResourceInfo.flags_buffer hclass).1]
  exact hfieldType

/-! ## Slots -/

/-- The slots that the map gives the resource. -/
def ShaderInfo.slotRange (info : ShaderInfo) (r : ResourceInfo) : Range :=
  match info.maps r.resourceClass r.id with
  | some entry => ⟨entry.range.bindingSlot, entry.range.size⟩
  | none => ⟨0, 0⟩

/-- Resources of one class have slots of their own, in the share of a stage. -/
structure SlotsSeparate (rs : List ResourceInfo) : Prop where
  apart : rs.Pairwise fun r r' => r.Known → r.resourceClass = r'.resourceClass →
    ((buildDxilShaderInfo rs).slotRange r).Apart ((buildDxilShaderInfo rs).slotRange r')
  bounded : ∀ r ∈ rs, r.Known → ((buildDxilShaderInfo rs).slotRange r).start +
    ((buildDxilShaderInfo rs).slotRange r).count ≤ share r.resourceClass

/-- A resource asks for the slot of its lower bound. -/
def ResourceInfo.request (r : ResourceInfo) : Request := ⟨r.lowerBound, r.size, r.size_pos⟩

/-- The requests of one class, in the order of the resources. -/
def requests (c : FrontEnds.DxilTranslationResourceClass) (rs : List ResourceInfo) : List Request :=
  (rs.filter (·.resourceClass = c)).map ResourceInfo.request

/-- The slots of a class are those allocated by preference. -/
theorem slotRange_eq (st : DxilBuild) (h : (keys rs).Nodup)
    {c : FrontEnds.DxilTranslationResourceClass} (hc : c ≠ .unknown) {earlier : List Nat}
    (hslots : st.slots c = taken earlier) :
    (rs.filter (·.resourceClass = c)).map ((st.run rs).toShaderInfo.slotRange) =
      rangesFrom earlier (requests c rs) := by
  induction rs generalizing st earlier with
  | nil => rfl
  | cons r rs ih =>
    by_cases hknown : r.Known
    · rw [keys_cons_known hknown, List.nodup_cons] at h
      have hnext : (st.buildResource r).slots c = _ := buildResource_slots hknown c
      by_cases hclass : r.resourceClass = c
      · rw [if_pos hclass.symm, hslots, ← taken_concat] at hnext
        have hkeep := run_maps_of_notMem (st.buildResource r) h.1
        rw [ResourceInfo.key] at hkeep
        have hrange : (st.run (r :: rs)).toShaderInfo.slotRange r =
            ⟨place (taken earlier) r.lowerBound, r.size⟩ := by
          unfold ShaderInfo.slotRange
          rw [run_cons, hkeep, buildResource_maps hknown, if_pos ⟨rfl, rfl⟩]
          simp only [entry_range hknown, rangeInfo, slot, allocateDxilBindingSlot_eq, hclass,
            hslots]
        simp only [requests, List.filter_cons, hclass, decide_true, if_true, List.map_cons,
          rangesFrom, hrange]
        exact congrArg _ (ih _ h.2 hnext)
      · rw [if_neg (Ne.symm hclass), hslots] at hnext
        simp only [requests, List.filter_cons, hclass, decide_false]
        exact ih _ h.2 hnext
    · rw [keys_cons_unknown hknown] at h
      have hclass : r.resourceClass ≠ c := by
        rintro rfl
        exact hknown hc
      simp only [requests, List.filter_cons, hclass, decide_false, run_cons,
        buildResource_unknown hknown]
      exact ih _ h hslots

/-- What holds of two elements of one class holds of the elements of each class. -/
theorem pairwise_class_iff {R : ResourceInfo → ResourceInfo → Prop} :
    (rs.Pairwise fun r r' => r.Known → r.resourceClass = r'.resourceClass → R r r') ↔
      ∀ c, c ≠ .unknown → (rs.filter (·.resourceClass = c)).Pairwise R := by
  constructor
  · intro h c hc
    rw [List.pairwise_filter]
    refine h.imp ?_
    intro r r' hR hr hr'
    have hclass := of_decide_eq_true hr
    refine hR ?_ (hclass.trans (of_decide_eq_true hr').symm)
    rw [ResourceInfo.Known, hclass]
    exact hc
  · intro h
    rw [List.pairwise_iff_getElem]
    intro i j hi hj hij hknown hclass
    have hfilter := h rs[i].resourceClass hknown
    rw [List.pairwise_filter, List.pairwise_iff_getElem] at hfilter
    exact hfilter i j hi hj hij (by simp) (by simp [hclass])

/-- The slots are separate exactly when the requests of each class fit in its share. -/
theorem slotsSeparate_iff (h : DistinctIds rs) :
    SlotsSeparate rs ↔ ∀ c, c ≠ .unknown → Fits (share c) (requests c rs) := by
  have hranges : ∀ c, c ≠ .unknown →
      (rs.filter (·.resourceClass = c)).map (buildDxilShaderInfo rs).slotRange = rangesFrom []
      (requests c rs) :=
    fun c hc => slotRange_eq DxilBuild.init h hc rfl
  constructor
  · intro hsep c hc
    rw [← separate_iff_fits, ← hranges c hc]
    refine ⟨List.pairwise_map.mpr (pairwise_class_iff.mp hsep.apart c hc), ?_⟩
    intro x hx
    obtain ⟨r, hr, rfl⟩ := List.mem_map.mp hx
    rw [List.mem_filter] at hr
    have hclass := of_decide_eq_true hr.2
    rw [← hclass]
    refine hsep.bounded r hr.1 ?_
    rw [ResourceInfo.Known, hclass]
    exact hc
  · intro hfits
    constructor
    · rw [pairwise_class_iff]
      intro c hc
      have hpairwise := ((separate_iff_fits _ _).mpr (hfits c hc)).1
      rw [← hranges c hc] at hpairwise
      exact List.pairwise_map.mp hpairwise
    · intro r hr hknown
      have hbound := ((separate_iff_fits _ _).mpr (hfits _ hknown)).2
      rw [← hranges _ hknown] at hbound
      exact hbound _ (List.mem_map_of_mem (List.mem_filter.mpr ⟨hr, by simp⟩))

/-- What makes slots and tables right: numbers that differ within a class, kinds that agree with
dimensions, and in each class requests that fit in the share of a stage. -/
structure Sound (rs : List ResourceInfo) : Prop where
  ids : DistinctIds rs
  kinds : KindsAgree rs
  fits : ∀ c, c ≠ .unknown → Fits (share c) (requests c rs)

/-- Slots and tables of a DXIL shader are right exactly for sound lists of resources. -/
theorem separate_and_agree_iff_sound (rs : List ResourceInfo) :
    (SlotsSeparate rs ∧ (dxilConstantBuffers rs).Agrees encodeConstantBuffer ∧
      (dxilResources rs).Agrees encodeShaderResource) ↔ Sound rs := by
  constructor
  · rintro ⟨hslots, hcbv, hres⟩
    have hids := distinctIds_of_agrees hcbv hres
    exact ⟨hids, kindsAgree_of_agrees hids hres, (slotsSeparate_iff hids).mp hslots⟩
  · intro h
    exact ⟨(slotsSeparate_iff h.ids).mpr h.fits, dxilConstantBuffers_agrees h.ids,
      dxilResources_agrees h.ids h.kinds⟩

end ArgumentTable

end Dxmt
