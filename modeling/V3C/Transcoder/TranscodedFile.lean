import V3C.Transcoder.AddEndTile
import V3C.Unit.AtlasFile
import V3C.Video.PCCVideoBitstream

/-! The transcoder between two compressed files. What is coded anew in a video is a parameter. -/
namespace V3C
open Codec

variable {M A : Type}

namespace AtlasSyntax

/-- Stores through the reference that `getVideoBitstream` returns. -/
def setVideoBitstream (type : ℕ) (data : List UInt8) :
    List PCCVideoBitstream → List PCCVideoBitstream
  | [] => []
  | stream :: rest =>
    if stream.type = type then { stream with data } :: rest
    else stream :: setVideoBitstream type data rest

end AtlasSyntax

namespace PCCTranscoder

variable (others : SeiSyntax M) (recode : ℕ → List UInt8 → Option (List UInt8)) (fuel : ℕ)

/-- The streams that are transcoded: the occupancy only to a precision of four. -/
def transcodedTypes (occupancyPrecision : ℕ) : List ℕ :=
  (if occupancyPrecision = 4 then [VIDEO_OCCUPANCY] else []) ++ [VIDEO_GEOMETRY, VIDEO_ATTRIBUTE]

/-- A sample stream is coded anew as a byte stream. -/
def transcodeVideo (type : ℕ) (data : List UInt8) : Option (List UInt8) := do
  let bytes ← sampleStreamToByteStream fuel false false 4 false data
  let coded ← recode type bytes
  byteStreamToSampleStream fuel 4 false coded

/-- A stream that is missing ends the program. -/
def transcodeStream (hls : AtlasSyntax A) (type : ℕ) : Option (AtlasSyntax A) := do
  let data ← hls.getVideoBitstream type
  let coded ← transcodeVideo recode fuel type data
  pure { hls with videoBitstream := AtlasSyntax.setVideoBitstream type coded hls.videoBitstream }

/-- The branch of `transcodeData` that is not the baseline. -/
def transcodeData (occupancyPrecision : ℕ) (hls : AtlasSyntax A) : Option (AtlasSyntax A) :=
  (transcodedTypes occupancyPrecision).foldlM (transcodeStream recode fuel) hls

/-- Transcodes the current atlas. -/
def transcode (occupancyPrecision : ℕ) (context : PCCHighLevelSyntax (AtlasData (SEI M))) :
    Option (PCCHighLevelSyntax (AtlasData (SEI M))) := do
  let hls ← context.getAtlasHighLevelSyntax
  let hls ← transcodeData recode fuel occupancyPrecision hls
  pure (PCCBitstreamReader.setAtlas context { hls with atlas := addEndTile hls.atlas })

/-- One atlas of a group: the context is transcoded and written as a whole. -/
def transcodeAtlas (occupancyPrecision : ℕ)
    (state : PCCHighLevelSyntax (AtlasData (SEI M)) × List V3CUnit) (atlId : ℕ) :
    Option (PCCHighLevelSyntax (AtlasData (SEI M)) × List V3CUnit) := do
  let context ← transcode recode fuel occupancyPrecision { state.1 with atlasIndex := atlId }
  let units ← PCCBitstreamWriter.encode (atlasCodec others) context
  pure (context, state.2 ++ units)

/-- The loop of the application over the groups of the units, which ends when the profile of a
group is not accepted. -/
def transcodeUnits (occupancyPrecision : ℕ) :
    ℕ → List V3CUnit → List V3CUnit → Option (List V3CUnit)
  | 0, _, _ => none
  | groups + 1, units, out => do
    let run ← PCCBitstreamReader.decode (atlasCodec others) {} units
    let profile ← run.1.checkProfile AtlasData.atlasSequenceParameterSet
    if profile = 0 then do
      let vps ← run.1.getVps
      let state ← (List.range vps.atlases.length).foldlM
        (transcodeAtlas others recode fuel occupancyPrecision) (run.1, out)
      if run.2 = [] then pure state.2
      else transcodeUnits occupancyPrecision groups run.2 state.2
    else none

/-- The application from one file to the other. -/
def transcodeFile (occupancyPrecision reads groups forced : ℕ) (file : List UInt8) :
    Option (List UInt8) := do
  let units ← PCCBitstreamReader.unitsOfFile reads file
  let units ← transcodeUnits others recode fuel occupancyPrecision groups units []
  PCCBitstreamWriter.fileOfUnits units forced

end PCCTranscoder

section Streams

variable {hls : AtlasSyntax A} {recode : ℕ → List UInt8 → Option (List UInt8)} {fuel : ℕ}

theorem find?_setVideoBitstream {streams : List PCCVideoBitstream} {type : ℕ} {old new : List UInt8}
    (h : (streams.find? fun stream => stream.type = type).map PCCVideoBitstream.data = some old)
    (t : ℕ) :
    ((AtlasSyntax.setVideoBitstream type new streams).find? fun stream => stream.type = t).map
        PCCVideoBitstream.data =
      if t = type then some new
      else (streams.find? fun stream => stream.type = t).map PCCVideoBitstream.data := by
  induction streams with
  | nil => simp at h
  | cons stream rest ih =>
    unfold AtlasSyntax.setVideoBitstream
    rw [List.find?_cons] at h
    split_ifs with htype heq heq
    · simp [heq, htype]
    · have hne : stream.type ≠ t := fun hstream => heq (hstream.symm.trans htype)
      simp [hne]
    · subst heq
      simp only [htype, decide_false] at h
      rw [List.find?_cons]
      simp only [htype, decide_false]
      rw [ih h, if_pos rfl]
    · simp only [htype, decide_false] at h
      rw [List.find?_cons, List.find?_cons]
      by_cases hstream : stream.type = t
      · simp [hstream]
      · simp only [hstream, decide_false]
        rw [ih h, if_neg heq]

/-- The streams of several types, each of its own, are coded anew and the others are kept. -/
theorem exists_transcodeStreams {types : List ℕ} (hnodup : types.Nodup)
    (h : ∀ type ∈ types, ∃ data coded, hls.getVideoBitstream type = some data ∧
      PCCTranscoder.transcodeVideo recode fuel type data = some coded) :
    ∃ hls', types.foldlM (PCCTranscoder.transcodeStream recode fuel) hls = some hls' ∧
      hls'.atlas = hls.atlas ∧ ∀ t, hls'.getVideoBitstream t =
        if t ∈ types then
          (hls.getVideoBitstream t).bind (PCCTranscoder.transcodeVideo recode fuel t)
        else hls.getVideoBitstream t := by
  induction types generalizing hls with
  | nil => exact ⟨hls, rfl, rfl, fun t => by simp⟩
  | cons type types ih =>
    obtain ⟨hnotMem, hnodup⟩ := List.nodup_cons.mp hnodup
    obtain ⟨⟨data, coded, hdata, hcoded⟩, hothers⟩ := List.forall_mem_cons.mp h
    let next : AtlasSyntax A :=
      { hls with videoBitstream := AtlasSyntax.setVideoBitstream type coded hls.videoBitstream }
    have hnext : ∀ t, next.getVideoBitstream t =
        if t = type then some coded else hls.getVideoBitstream t :=
      find?_setVideoBitstream hdata
    have hkept : ∀ t ∈ types, next.getVideoBitstream t = hls.getVideoBitstream t := by
      intro t ht
      rw [hnext, if_neg]
      rintro rfl
      exact hnotMem ht
    obtain ⟨hls', hrun, hatlas, hstreams⟩ := @ih next hnodup (by
      intro t ht
      rw [hkept t ht]
      exact hothers t ht)
    refine ⟨hls', ?_, hatlas, fun t => ?_⟩
    · rw [List.foldlM_cons]
      unfold PCCTranscoder.transcodeStream
      rw [hdata]
      simp only [Option.bind_eq_bind, Option.bind_some, hcoded]
      exact hrun
    · rw [hstreams, hnext]
      by_cases heq : t = type
      · subst heq
        simp [hnotMem, hdata, hcoded]
      · simp [heq]

end Streams

/-- Related lists, each element of the second with what follows from it. -/
theorem forall₂_trans {α β γ : Type} {S : β → γ → Prop} {T : α → γ → Prop} {as : List α}
    {bs : List β} {cs : List γ} (h : List.Forall₂ (fun a b => ∀ c, S b c → T a c) as bs)
    (h' : List.Forall₂ S bs cs) : List.Forall₂ T as cs := by
  induction h generalizing cs with
  | nil =>
    cases h'
    exact List.Forall₂.nil
  | cons hhead _ ih =>
    cases h' with
    | cons hsecond htail => exact List.Forall₂.cons (hhead _ hsecond) (ih htail)

section Groups

variable (others : SeiSyntax M) (recode : ℕ → List UInt8 → Option (List UInt8)) (fuel : ℕ)
  (occupancyPrecision : ℕ)

/-- A group that the transcoder accepts. Its parameter set comes back as it is and has an
accepted profile, and there are streams to transcode which can be coded anew. -/
structure TranscodableGroup extends AtlasGroup others where
  inRange : vps.InRange
  restorable : vps.Restorable
  conforms : (receiving vps coded.data.received []).checkProfile
    AtlasData.atlasSequenceParameterSet = some 0
  transcoded : ∀ type ∈ PCCTranscoder.transcodedTypes occupancyPrecision,
    ∃ c ∈ PCCBitstreamWriter.videoHeaders atlas first.rawPatchEnabledFlag
      { v3cParameterSetId := vps.v3cParameterSetId }, atlas.streamType c.1 c.2 = type ∧
      ∃ data coded, context.component vps c = some data ∧
        PCCTranscoder.transcodeVideo recode fuel type data = some coded

namespace TranscodableGroup

variable {others recode fuel occupancyPrecision}
  (group : TranscodableGroup others recode fuel occupancyPrecision)

theorem received_vps : group.vps.received = group.vps :=
  group.inRange.received_eq group.restorable

/-- The video components of the group. -/
def components : List (ℕ × V3CUnitHeader) :=
  PCCBitstreamWriter.videoHeaders group.atlas group.first.rawPatchEnabledFlag
    { v3cParameterSetId := group.vps.v3cParameterSetId }

/-- A component as a decoder of the output has it. -/
def transcodedComponent (c : ℕ × V3CUnitHeader) : Option (List UInt8) :=
  let type := group.atlas.streamType c.1 c.2
  if type ∈ PCCTranscoder.transcodedTypes occupancyPrecision then
    (group.context.component group.vps c).bind (PCCTranscoder.transcodeVideo recode fuel type)
  else group.context.component group.vps c

/-- What a decoder of the output has of the group: the parameter set and the atlas data as a
decoder of the input has them, the streams of some types coded anew, and all others. -/
structure Transcoded (context : PCCHighLevelSyntax (AtlasData (SEI M))) : Prop where
  getVps : context.getVps = some group.vps
  atlases : context.atlasHLS.map AtlasSyntax.atlas = [group.coded.data.received]
  index : context.atlasIndex = 0
  component : ∀ c ∈ group.components,
    context.component group.vps c = group.transcodedComponent c

/-- A received group has the profile that the sequence parameter sets of its atlas give. -/
theorem checkProfile_restored {context : PCCHighLevelSyntax (AtlasData (SEI M))}
    {input : CodedGroup (atlasCodec others)} (hvps : input.vps = group.vps)
    (hreceived : input.received = group.coded.data.received) (h : input.Restored context) :
    context.checkProfile AtlasData.atlasSequenceParameterSet = some 0 := by
  rw [← group.conforms]
  obtain ⟨hls, hhls, hatlas⟩ := List.map_eq_singleton_iff.mp h.atlases
  unfold PCCHighLevelSyntax.checkProfile
  rw [h.getVps, hhls, getVps_receiving, hvps]
  simp only [hatlas, hreceived]
  rfl

/-- What the encoder has put into the input file for the group. -/
structure InputOf (input : CodedGroup (atlasCodec others)) : Prop where
  context : input.context = group.context
  vps : input.vps = group.vps
  atlas : input.atlas = group.atlas
  received : input.received = group.coded.data.received
  raw : input.raw = group.first.rawPatchEnabledFlag

theorem exists_input : ∃ input : CodedGroup (atlasCodec others), group.InputOf input := by
  obtain ⟨bytes, hwritten, hread⟩ := group.coded.exists_bytes group.newReader
  exact ⟨group.codedGroup hwritten hread, rfl, rfl, rfl, rfl, rfl⟩

theorem components_input {input : CodedGroup (atlasCodec others)} (hinput : group.InputOf input) :
    input.components = group.components := by
  unfold CodedGroup.components components
  rw [hinput.atlas, hinput.raw, hinput.vps]

/-- The streams of an atlas are the components of the group. -/
def Holds (hls : AtlasSyntax (AtlasData (SEI M))) : Prop :=
  ∀ c ∈ group.components, hls.getVideoBitstream (group.atlas.streamType c.1 c.2) =
    group.context.component group.vps c

/-- The only atlas of a received group. -/
theorem exists_current {context : PCCHighLevelSyntax (AtlasData (SEI M))}
    {input : CodedGroup (atlasCodec others)} (hinput : group.InputOf input)
    (h : input.Restored context) :
    ∃ hls, context.getAtlasHighLevelSyntax = some hls ∧ context.atlasHLS = [hls] ∧
      hls.atlas = group.coded.data.received ∧ group.Holds hls := by
  obtain ⟨hls, hhls, hatlas⟩ := List.map_eq_singleton_iff.mp h.atlases
  refine ⟨hls, ?_, hhls, hatlas.trans hinput.received, fun c hc => ?_⟩
  · unfold PCCHighLevelSyntax.getAtlasHighLevelSyntax
    rw [h.index, hhls]
    rfl
  · rw [← group.components_input hinput] at hc
    rw [← hinput.context, ← hinput.vps, ← hinput.atlas, ← h.component c hc,
      input.component_received hc]
    unfold PCCHighLevelSyntax.video
    rw [hhls]
    rfl

section Holds

variable {hls : AtlasSyntax (AtlasData (SEI M))} (hholds : group.Holds hls)

include hholds

theorem exists_transcodedComponent {c : ℕ × V3CUnitHeader} (hc : c ∈ group.components) :
    ∃ bytes, group.transcodedComponent c = some bytes := by
  unfold transcodedComponent
  dsimp only
  split_ifs with htype
  · obtain ⟨c', hc', hstream, data, coded, hdata, hcoded⟩ := group.transcoded _ htype
    have hsame : group.context.component group.vps c = some data := by
      rw [← hholds c hc, ← hstream, hholds c' hc', hdata]
    rw [hsame, Option.bind_some, hcoded]
    exact ⟨coded, rfl⟩
  · exact group.held c hc

theorem exists_transcodeTypes :
    ∃ hls', (PCCTranscoder.transcodedTypes occupancyPrecision).foldlM
        (PCCTranscoder.transcodeStream recode fuel) hls = some hls' ∧
      hls'.atlas = hls.atlas ∧ ∀ c ∈ group.components,
        hls'.getVideoBitstream (group.atlas.streamType c.1 c.2) =
          group.transcodedComponent c := by
  have hnodup : (PCCTranscoder.transcodedTypes occupancyPrecision).Nodup := by
    unfold PCCTranscoder.transcodedTypes
    split_ifs <;> decide
  obtain ⟨hls', hrun, hsame, hstreams⟩ := @exists_transcodeStreams _ hls recode fuel _ hnodup (by
      intro type htype
      obtain ⟨c, hc, hstream, data, coded, hdata, hcoded⟩ := group.transcoded type htype
      refine ⟨data, coded, ?_, hcoded⟩
      rw [← hstream, hholds c hc, hdata])
  refine ⟨hls', hrun, hsame, fun c hc => ?_⟩
  rw [hstreams, hholds c hc]
  rfl

end Holds

/-- The transcoder makes of a received group a group that can be encoded. -/
theorem exists_transcode {context : PCCHighLevelSyntax (AtlasData (SEI M))}
    {input : CodedGroup (atlasCodec others)} (hinput : group.InputOf input)
    (h : input.Restored context) :
    ∃ output : CodedGroup (atlasCodec others),
      PCCTranscoder.transcode recode fuel occupancyPrecision context = some output.context ∧
      ∀ final, output.Restored final → group.Transcoded final := by
  obtain ⟨hls, hcurrent, hhls, hatlas, hholds⟩ := group.exists_current hinput h
  obtain ⟨hls', hrun, hsame, hstreams⟩ := group.exists_transcodeTypes hholds
  let next : PCCHighLevelSyntax (AtlasData (SEI M)) := PCCBitstreamReader.setAtlas context
    { hls' with atlas := PCCTranscoder.addEndTile hls'.atlas }
  have hnext : next.atlasHLS = [{ hls' with atlas := PCCTranscoder.addEndTile hls'.atlas }] := by
    change context.atlasHLS.set context.atlasIndex _ = _
    rw [hhls, h.index]
    rfl
  have hatlasNext : PCCTranscoder.addEndTile hls'.atlas = group.coded.transcoded := by
    rw [hsame, hatlas]
    rfl
  have hvps : next.getVps = some group.vps := by
    rw [← group.received_vps, ← hinput.vps]
    exact h.getVps
  have hid : ∀ c ∈ group.components, c.2.atlasId = 0 := fun c hc =>
    (input.hasVideo_of_mem (group.components_input hinput ▸ hc)).2.2
  have hfirst : group.vps.atlases[0]? = some group.atlas := by
    rw [group.oneAtlas]
    rfl
  have hheld : ∀ c ∈ group.components,
      next.component group.vps c = group.transcodedComponent c := by
    intro c hc
    rw [component_eq hfirst (hid c hc)]
    unfold PCCHighLevelSyntax.video
    rw [hnext]
    simp only [List.getElem?_cons_zero, Option.bind_eq_bind, Option.bind_some]
    exact hstreams c hc
  obtain ⟨tile', hdelivered⟩ := group.coded.delivered_transcoded
  rw [group.newReader] at hdelivered
  obtain ⟨rewritten, hwritten, hread⟩ := hdelivered.exists_bytes group.coded.transcoded_sizes_lt
  let output : CodedGroup (atlasCodec others) := {
    context := next
    vps := group.vps
    atlas := group.atlas
    data := group.coded.transcoded
    bytes := rewritten
    received := group.coded.data.received
    raw := group.first.rawPatchEnabledFlag
    coded := group.vpsCoded
    short := group.short
    oneAtlas := group.oneAtlas
    oneStream := group.oneStream
    active := hvps
    atlases := by
      rw [hnext, ← hatlasNext]
      rfl
    index := h.index
    written := hwritten
    read := hread
    flag := by
      change group.coded.data.atlasSequenceParameterSet.head?.map _ = _
      rw [group.firstSet, Option.map_some]
    held := by
      intro c hc
      obtain ⟨bytes, hbytes⟩ := group.exists_transcodedComponent hholds hc
      exact ⟨bytes, (hheld c hc).trans hbytes⟩ }
  refine ⟨output, ?_, fun final hfinal => ?_⟩
  · unfold PCCTranscoder.transcode PCCTranscoder.transcodeData
    rw [hcurrent]
    simp only [Option.bind_eq_bind, Option.bind_some, hrun]
    rfl
  · have hreceived : output.vps.received = group.vps := group.received_vps
    refine ⟨?_, hfinal.atlases, hfinal.index, fun c hc => ?_⟩
    · rw [hfinal.getVps, hreceived]
    · rw [← hheld c hc]
      have hrestored := hfinal.component c hc
      rw [hreceived] at hrestored
      exact hrestored

/-- The loop over the atlases of a received group, which are one. -/
theorem exists_transcodeAtlas {context : PCCHighLevelSyntax (AtlasData (SEI M))}
    {input : CodedGroup (atlasCodec others)} (hinput : group.InputOf input)
    (h : input.Restored context) :
    ∃ (output : CodedGroup (atlasCodec others)) (vps : V3CParameterSet) (units : List V3CUnit),
      context.getVps = some vps ∧
      PCCBitstreamWriter.encode (atlasCodec others) output.context = some units ∧
      (∀ out, (List.range vps.atlases.length).foldlM
        (PCCTranscoder.transcodeAtlas others recode fuel occupancyPrecision)
          (context, out) = some (output.context, out ++ units)) ∧
      ∀ final, output.Restored final → group.Transcoded final := by
  obtain ⟨output, htranscode, hfinal⟩ := group.exists_transcode hinput h
  obtain ⟨units, hencode, -⟩ := output.exists_encode
  refine ⟨output, _, units, h.getVps, hencode, fun out => ?_, hfinal⟩
  have hone : input.vps.received.atlases.length = 1 := by
    rw [hinput.vps, group.received_vps, group.oneAtlas]
    rfl
  have hcontext : { context with atlasIndex := 0 } = context := by
    rw [← h.index]
  rw [hone, List.range_one, List.foldlM_cons]
  unfold PCCTranscoder.transcodeAtlas
  simp only [hcontext, htranscode, hencode, Option.bind_eq_bind, Option.bind_some]
  rfl

end TranscodableGroup

section Runs

variable {others recode fuel occupancyPrecision}
  {groups : List (TranscodableGroup others recode fuel occupancyPrecision)}

/-- The output groups of the loop, and their units. -/
theorem transcodeUnits_groups {units : List (List V3CUnit)} (hne : groups ≠ [])
    (hencode : List.Forall₂ (fun group units =>
      PCCBitstreamWriter.encode (atlasCodec others) group.context = some units) groups units) :
    ∃ (outputs : List (CodedGroup (atlasCodec others))) (outUnits : List V3CUnit),
      List.Forall₂ (fun group output => ∀ final, output.Restored final →
        TranscodableGroup.Transcoded group final) groups outputs ∧
      PCCBitstreamWriter.encodeAll (atlasCodec others) (outputs.map CodedGroup.context) =
        some outUnits ∧
      ∀ out, PCCTranscoder.transcodeUnits others recode fuel occupancyPrecision groups.length
        units.flatten out = some (out ++ outUnits) := by
  induction hencode with
  | nil => exact absurd rfl hne
  | @cons group unit groups units hfirst hencode ih =>
    obtain ⟨input, hinput⟩ := group.exists_input
    rw [← hinput.context] at hfirst
    have hnext : ∀ next ∈ units.head?, ∃ nextGroup : CodedGroup (atlasCodec others),
        PCCBitstreamWriter.encode (atlasCodec others) nextGroup.context = some next := by
      intro next hnext
      cases hencode with
      | nil => cases hnext
      | @cons nextGroup _ _ _ hsecond _ =>
        obtain rfl := Option.some.inj hnext
        obtain ⟨nextInput, hnextInput⟩ := nextGroup.exists_input
        exact ⟨nextInput, hnextInput.context ▸ hsecond⟩
    obtain ⟨context, hdecode, hrestored⟩ := CodedGroup.decode_append hfirst hnext
    obtain ⟨output, vps, outUnit, hvps, houtput, hloop, hfinal⟩ :=
      group.exists_transcodeAtlas hinput hrestored
    have hprofile := group.checkProfile_restored hinput.vps hinput.received hrestored
    have hstep : ∀ out, PCCTranscoder.transcodeUnits others recode fuel occupancyPrecision
        (group :: groups).length (unit :: units).flatten out =
          if units.flatten = [] then some (out ++ outUnit)
          else PCCTranscoder.transcodeUnits others recode fuel occupancyPrecision
            groups.length units.flatten (out ++ outUnit) := by
      intro out
      rw [List.length_cons, List.flatten_cons, PCCTranscoder.transcodeUnits, hdecode]
      simp only [Option.bind_eq_bind, Option.bind_some, hprofile, if_true, hvps, hloop]
      rfl
    cases hencode with
    | nil =>
      refine ⟨[output], outUnit, List.Forall₂.cons hfinal List.Forall₂.nil, ?_, fun out => ?_⟩
      · simp [PCCBitstreamWriter.encodeAll, houtput]
      · rw [hstep]
        rfl
    | @cons nextGroup nextUnit groups units hsecond hencode =>
      obtain ⟨outputs, outUnits, hall, hwritten, hrun⟩ :=
        ih (List.cons_ne_nil _ _)
      refine ⟨output :: outputs, outUnit ++ outUnits, List.Forall₂.cons hfinal hall, ?_,
        fun out => ?_⟩
      · unfold PCCBitstreamWriter.encodeAll at hwritten ⊢
        obtain ⟨others, hothers, hflatten⟩ := Option.bind_eq_some_iff.mp hwritten
        rw [List.map_cons, List.mapM_cons, houtput, hothers]
        simp only [Option.bind_eq_bind, Option.bind_some]
        exact congrArg some (congrArg (outUnit ++ ·) (Option.some.inj hflatten))
      · obtain ⟨nextInput, hnextInput⟩ := nextGroup.exists_input
        rw [← hnextInput.context] at hsecond
        obtain ⟨first, rest, rfl, -⟩ := (nextInput.isGroup_of_encode hsecond).1.starts
        rw [hstep, if_neg, hrun, List.append_assoc]
        rw [List.flatten_cons, List.cons_append]
        exact List.cons_ne_nil _ _

/-- Whatever groups are in the input file, a decoder of the output file has every parameter set,
all atlas data and all streams that are not transcoded as a decoder of the input has them, and
the other streams as they were coded anew. -/
theorem decompress_transcodedFile
    (first : TranscodableGroup others recode fuel occupancyPrecision)
    (rest : List (TranscodableGroup others recode fuel occupancyPrecision)) :
    ∃ units outputUnits,
      PCCBitstreamWriter.encodeAll (atlasCodec others)
        ((first :: rest).map fun group => group.context) = some units ∧
      PCCTranscoder.transcodeUnits others recode fuel occupancyPrecision
        (first :: rest).length units [] = some outputUnits ∧
      ∀ forced forced', SizesFit (largestSize units) forced →
        SizesFit (largestSize outputUnits) forced' →
        ∃ file reads output fuel' contexts,
          PCCBitstreamWriter.compress (atlasCodec others) forced
            ((first :: rest).map fun group => group.context) = some file ∧
          PCCTranscoder.transcodeFile others recode fuel occupancyPrecision
            reads (first :: rest).length forced' file = some output ∧
          PCCBitstreamReader.decompress (atlasCodec others) fuel' (first :: rest).length output =
            some contexts ∧
          List.Forall₂ TranscodableGroup.Transcoded (first :: rest) contexts := by
  obtain ⟨groupUnits, hmap, hencode⟩ := exists_mapM_forall₂ (l := first :: rest)
    (f := fun group => PCCBitstreamWriter.encode (atlasCodec others) group.context)
    (R := fun group units =>
      PCCBitstreamWriter.encode (atlasCodec others) group.context = some units)
    fun group _ => by
      obtain ⟨input, hinput⟩ := group.exists_input
      obtain ⟨units, hunits, -⟩ := input.exists_encode
      rw [hinput.context] at hunits
      exact ⟨units, hunits, hunits⟩
  obtain ⟨outputs, outputUnits, hall, hwritten, hrun⟩ :=
    transcodeUnits_groups (List.cons_ne_nil first rest) hencode
  have hinput : PCCBitstreamWriter.encodeAll (atlasCodec others)
      ((first :: rest).map fun group => group.context) = some groupUnits.flatten := by
    unfold PCCBitstreamWriter.encodeAll
    rw [List.mapM_map]
    change ((first :: rest).mapM fun group =>
      PCCBitstreamWriter.encode (atlasCodec others) group.context).bind _ = _
    rw [hmap]
    rfl
  refine ⟨groupUnits.flatten, outputUnits, hinput, hrun [], fun forced forced' hfit hfit' => ?_⟩
  have hunits : ∀ unit ∈ groupUnits.flatten,
      V3CUnit.ofBytes unit.data = some unit ∧ unit.Valid := by
    intro unit hunit
    obtain ⟨units, hmem, hunit⟩ := List.mem_flatten.mp hunit
    obtain ⟨group, -, hgroup⟩ := exists_mem_of_mapM_eq_some hmap hmem
    obtain ⟨coded, hcoded⟩ := group.exists_input
    rw [← hcoded.context] at hgroup
    exact (coded.isGroup_of_encode hgroup).2 unit hunit
  obtain ⟨file, reads, hfile, hread⟩ := unitsOfFile_fileOfUnits hunits hfit
  obtain ⟨outputUnits', hwritten', hdecompress⟩ := decompress_fileOfUnits outputs
  obtain rfl : outputUnits' = outputUnits := Option.some.inj (hwritten'.symm.trans hwritten)
  obtain ⟨output, fuel', contexts, houtput, hcontexts, hrestored⟩ := hdecompress forced' hfit'
  refine ⟨file, reads, output, fuel', contexts, ?_, ?_, ?_, ?_⟩
  · unfold PCCBitstreamWriter.compress
    rw [hinput, Option.bind_eq_bind, Option.bind_some, hfile]
  · unfold PCCTranscoder.transcodeFile
    rw [hread]
    simp only [Option.bind_eq_bind, Option.bind_some, hrun, List.nil_append, houtput]
  · rw [hall.length_eq]
    exact hcontexts
  · exact forall₂_trans hall hrestored

end Runs

end Groups

/-! ### Two groups of two skip tiles -/

/-- A video codec that leaves a unit longer than it has been. -/
def appendByte (_ : ℕ) (bytes : List UInt8) : Option (List UInt8) := some (bytes ++ [7])

/-- The group of skip tiles, for a video codec that appends a byte to the only unit. -/
def transcodableSkipTiles : TranscodableGroup noOtherMessages appendByte 3 2 where
  toAtlasGroup := skipTilesGroup
  inRange := oneMapSet_inRange
  restorable := oneMapSet_restorable
  conforms := rfl
  transcoded := by
    intro type htype
    have hcoded : PCCTranscoder.transcodeVideo appendByte 3 type [0, 0, 0, 2, 1, 1] =
        some [0, 0, 0, 3, 1, 1, 7] := by
      unfold PCCTranscoder.transcodeVideo appendByte
      decide +kernel
    rcases List.mem_pair.mp htype with rfl | rfl
    · refine ⟨(V3C_GVD, {}), by decide, rfl, _, _, component_holding ?_, hcoded⟩
      decide
    · refine ⟨(V3C_AVD, {}), by decide, rfl, _, _, component_holding ?_, hcoded⟩
      decide

theorem decompress_transcodedFile_skipTiles :
    ∃ file reads output fuel contexts,
      PCCBitstreamWriter.compress (atlasCodec noOtherMessages) 0
        [transcodableSkipTiles.context, transcodableSkipTiles.context] = some file ∧
      PCCTranscoder.transcodeFile noOtherMessages appendByte 3 2 reads 2 1 file = some output ∧
      PCCBitstreamReader.decompress (atlasCodec noOtherMessages) fuel 2 output = some contexts ∧
      List.Forall₂ TranscodableGroup.Transcoded [transcodableSkipTiles, transcodableSkipTiles]
        contexts := by
  obtain ⟨units, outputUnits, hunits, houtput, hfile⟩ :=
    decompress_transcodedFile transcodableSkipTiles [transcodableSkipTiles]
  have hlargest : (PCCBitstreamWriter.encodeAll (atlasCodec noOtherMessages)
      [transcodableSkipTiles.context, transcodableSkipTiles.context]).map largestSize =
        some 71 := by
    decide +kernel
  have hlargestOutput : ((PCCBitstreamWriter.encodeAll (atlasCodec noOtherMessages)
      [transcodableSkipTiles.context, transcodableSkipTiles.context]).bind fun units =>
        PCCTranscoder.transcodeUnits noOtherMessages appendByte 3 2 2 units []).map largestSize =
          some 71 := by
    decide +kernel
  rw [List.map_cons, List.map_cons, List.map_nil] at hunits
  change PCCTranscoder.transcodeUnits noOtherMessages appendByte 3 2 2 units [] = _ at houtput
  rw [hunits, Option.map_some] at hlargest
  rw [hunits, Option.bind_some, houtput, Option.map_some] at hlargestOutput
  refine hfile 0 1 (sizesFit_of_lt ?_ (by decide)) (sizesFit_of_lt ?_ (by decide))
  · rw [Option.some.inj hlargest]
    decide
  · rw [Option.some.inj hlargestOutput]
    decide

end V3C
