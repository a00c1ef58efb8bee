import V3C.Atlas.NalUnitRoundTrip
import V3C.Bitstream.FieldConsumption

/-! Messages that have been read and are written again: which of them a reader of the output has
as they were. -/
namespace V3C
open Codec

variable {M P : Type}

/-! ### What a reader can have -/

/-- What has been read of the updates of instances. An instance that has two updates keeps of the
first one what the second one does not code. -/
structure InstanceUpdates.Received (initial : P) (codedParameters : P → Prop)
    (sei : InstanceUpdates P) : Prop where
  length_lt : sei.instances.length < 2 ^ 8
  length_eq : sei.instances.length = sei.instanceIndex.length
  index_lt : ∀ k ∈ sei.instanceIndex, k < sei.instances.length
  methodType_lt : ∀ update ∈ sei.instances, update.methodType < 2 ^ 8
  parameters : ∀ update ∈ sei.instances, codedParameters update.parameters
  noUpdate : ∀ k < sei.instances.length, k ∉ sei.instanceIndex →
    sei.instances[k]? = some { parameters := initial }

/-- What has been read of a message behind the header of a NAL unit type. -/
def SeiContent.Received (nalUnitType : ℕ) : SeiContent M → Prop
  | .userDataRegisteredItuTT35 sei => sei.Coded ∧ sei.size < 2 ^ 31
  | .componentCodecMapping sei => IsPrefixSei nalUnitType ∧ sei.Coded
  | .occupancySynthesis sei =>
    IsPrefixSei nalUnitType ∧ sei.Received {} OccupancySynthesisParameters.Coded
  | .geometrySmoothing sei =>
    IsPrefixSei nalUnitType ∧ sei.Received {} GeometrySmoothingParameters.Coded
  | _ => True

theorem readBytes_ensures (n : ℕ) : (PCCBitstreamReader.readBytes n).Ensures fun bytes =>
    bytes.length = n ∧ ∀ byte ∈ bytes, byte < 2 ^ 8 := by
  have hloop : ∀ i, (Reader.repeatFrom i n fun _ => read 8).Ensures fun bytes =>
      bytes.length = n ∧ ∀ byte ∈ bytes, byte < 2 ^ 8 := by
    induction n with
    | zero => exact fun _ => .pure ⟨rfl, fun _ h => absurd h List.not_mem_nil⟩
    | succ n ih =>
      intro i
      refine (read_ensures_lt 8).then_bind fun byte hbyte => ?_
      refine (ih (i + 1)).then_bind fun bytes hbytes => .pure ?_
      exact ⟨congrArg Nat.succ hbytes.1, List.forall_mem_cons.mpr ⟨hbyte, hbytes.2⟩⟩
  exact hloop 0

/-- A size that is counted down has not wrapped. -/
theorem reducedSize_ensures (payloadSize n : ℕ) :
    (Reader.ofOption (reducedSize payloadSize n)).Ensures (· + n = payloadSize) := by
  intro c rest c' h
  have hsome := (Reader.ofOption_run_eq_some.mp h).1
  unfold reducedSize at hsome
  split_ifs at hsome with hle
  rw [← Option.some.inj hsome]
  exact Nat.sub_add_cancel hle

theorem userDataRegisteredItuTT35_ensures {payloadSize : ℕ} (hsize : payloadSize < 2 ^ 31) :
    (PCCBitstreamReader.userDataRegisteredItuTT35 payloadSize).Ensures fun sei =>
      sei.Coded ∧ sei.size < 2 ^ 31 := by
  unfold PCCBitstreamReader.userDataRegisteredItuTT35
  refine (read_ensures_lt 8).then_bind fun countryCode hcode => ?_
  refine (reducedSize_ensures payloadSize 1).then_bind fun rest hrest => ?_
  split_ifs with hextended
  · refine (read_ensures_lt 8).then_bind fun extension hextension => ?_
    refine (reducedSize_ensures rest 1).then_bind fun last hlast => ?_
    refine (readBytes_ensures last).then_bind fun bytes hbytes => .pure ?_
    refine ⟨⟨hcode, hextension, fun h => absurd hextended h, hbytes.2⟩, ?_⟩
    unfold SEIUserDataRegisteredItuTT35.size
    rw [if_pos hextended]
    change 2 + bytes.length < 2 ^ 31
    omega
  · refine (readBytes_ensures rest).then_bind fun bytes hbytes => .pure ?_
    refine ⟨⟨hcode, Nat.two_pow_pos 8, fun _ => rfl, hbytes.2⟩, ?_⟩
    unfold SEIUserDataRegisteredItuTT35.size
    rw [if_neg hextended]
    change 1 + bytes.length < 2 ^ 31
    omega

/-- A table whose entries are read keeps its length, and the entries at other positions. -/
theorem indexedEntries_ensures {E : Type} {entry : E → Reader E} {Q : E → Prop}
    (hentry : ∀ old, Q old → (entry old).Ensures Q) (n : ℕ) {table : List E}
    (htable : ∀ element ∈ table, Q element) :
    (PCCBitstreamReader.indexedEntries entry n table).Ensures fun result =>
      result.1.length = n ∧ result.2.length = table.length ∧
      (∀ k ∈ result.1, k < 2 ^ 8 ∧ k < table.length) ∧ (∀ element ∈ result.2, Q element) ∧
      ∀ k, k ∉ result.1 → result.2[k]? = table[k]? := by
  induction n generalizing table with
  | zero =>
    exact .pure ⟨rfl, rfl, fun _ h => absurd h List.not_mem_nil, htable, fun _ _ => rfl⟩
  | succ n ih =>
    unfold PCCBitstreamReader.indexedEntries
    refine (read_ensures_lt 8).then_bind fun k hk => ?_
    intro c result c' hrun
    obtain ⟨old, _, hold, hrun⟩ := Reader.bind_run_eq_some.mp hrun
    have hget : table[k]? = some old := (Reader.ofOption_run_eq_some.mp hold).1
    have hlt := (List.getElem?_eq_some_iff.mp hget).1
    obtain ⟨new, _, hnew, hrun⟩ := Reader.bind_run_eq_some.mp hrun
    have hq := hentry old (htable old (List.mem_of_getElem? hget)) _ _ _ hnew
    obtain ⟨⟨indices, last⟩, _, hrest, hrun⟩ := Reader.bind_run_eq_some.mp hrun
    obtain ⟨rfl, -⟩ := Prod.mk.inj (Option.some.inj hrun)
    have hset : ∀ element ∈ table.set k new, Q element := by
      intro element helement
      rcases List.mem_or_eq_of_mem_set helement with hmem | rfl
      · exact htable element hmem
      · exact hq
    obtain ⟨hcount, hlength, hindices, helements, hkept⟩ := ih hset _ _ _ hrest
    rw [List.length_set] at hlength hindices
    refine ⟨congrArg Nat.succ hcount, hlength, ?_, helements, fun j hj => ?_⟩
    · exact List.forall_mem_cons.mpr ⟨⟨hk, hlt⟩, hindices⟩
    · rw [hkept j (List.not_mem_of_not_mem_cons hj),
        List.getElem?_set_ne (Ne.symm (List.ne_of_not_mem_cons hj))]

theorem instanceUpdate_ensures {codedParameters : P → Prop} {r : Reader P}
    (hr : r.Ensures codedParameters) (old : InstanceUpdate P)
    (hold : old.methodType < 2 ^ 8 ∧ codedParameters old.parameters) :
    (PCCBitstreamReader.instanceUpdate r old).Ensures fun update =>
      update.methodType < 2 ^ 8 ∧ codedParameters update.parameters := by
  unfold PCCBitstreamReader.instanceUpdate
  refine .bind fun canceled => ?_
  split_ifs
  · exact .pure hold
  · refine .bind fun methodType => ?_
    have hmethod : toUInt8 methodType < 2 ^ 8 := Nat.mod_lt _ (by decide)
    dsimp only
    split_ifs
    · exact hr.then_bind fun parameters hparameters => .pure ⟨hmethod, hparameters⟩
    · exact .pure ⟨hmethod, hold.2⟩

theorem instanceUpdates_ensures {initial : P} {codedParameters : P → Prop} {r : Reader P}
    (hinitial : codedParameters initial) (hr : r.Ensures codedParameters) :
    (PCCBitstreamReader.instanceUpdates initial r).Ensures
      (InstanceUpdates.Received initial codedParameters) := by
  unfold PCCBitstreamReader.instanceUpdates
  refine .bind fun persistenceFlag => .bind fun resetFlag => ?_
  refine (read_ensures_lt 8).then_bind fun count hcount => ?_
  refine (indexedEntries_ensures (instanceUpdate_ensures hr) count ?_).then_bind
    fun result hresult => .pure ?_
  · intro element helement
    obtain rfl := List.eq_of_mem_replicate helement
    exact ⟨Nat.two_pow_pos 8, hinitial⟩
  · obtain ⟨hindices, hlength, hindex, helements, hkept⟩ := hresult
    rw [List.length_replicate] at hlength hindex
    exact {
      length_lt := hlength ▸ hcount
      length_eq := hlength.trans hindices.symm
      index_lt := fun k hk => hlength ▸ (hindex k hk).2
      methodType_lt := fun update hupdate => (helements update hupdate).1
      parameters := fun update hupdate => (helements update hupdate).2
      noUpdate := fun k hk hnot => by
        rw [hkept k hnot, List.getElem?_replicate, if_pos (hlength ▸ hk)] }

theorem readString_ensures : readString.Ensures (0 ∉ ·) := by
  have hchars : ∀ fuel, (readChars fuel).Ensures (0 ∉ ·) := by
    intro fuel
    induction fuel with
    | zero => exact fun _ _ _ h => nomatch h
    | succ fuel ih =>
      unfold readChars
      refine (read_ensures_lt 8).then_bind fun element helement => ?_
      split_ifs with hzero
      · exact .pure List.not_mem_nil
      · refine ih.then_bind fun str hstr =>
          .pure (List.not_mem_cons_of_ne_of_not_mem (fun h => ?_) hstr)
        have htoNat := congrArg UInt8.toNat h
        rw [UInt8.toNat_ofNat', Nat.mod_eq_of_lt helement] at htoNat
        exact hzero htoNat.symm
  unfold readString
  exact .bind fun _ => .bind hchars

theorem componentCodecMapping_ensures :
    PCCBitstreamReader.componentCodecMapping.Ensures SEIComponentCodecMapping.Coded := by
  unfold PCCBitstreamReader.componentCodecMapping
  refine .bind fun canceled => ?_
  split_ifs with hcanceled
  · obtain rfl : canceled = true := hcanceled
    exact .pure ⟨fun _ => rfl, Nat.two_pow_pos 8, nofun, nofun⟩
  · refine (read_ensures_lt 8).then_bind fun count hcount => ?_
    refine (indexedEntries_ensures (fun _ _ => readString_ensures) (count + 1) ?_).then_bind
      fun result hresult => .pure ?_
    · intro code hcode
      rw [List.eq_of_mem_replicate hcode]
      exact List.not_mem_nil
    · obtain ⟨hids, hlength, hindex, hcodes, hkept⟩ := hresult
      rw [List.length_replicate] at hlength
      exact {
        canceled := fun h => absurd h hcanceled
        count_lt := hcount
        codecId := fun _ => ⟨hids, fun k hk => (hindex k hk).1⟩
        codec4cc := fun _ => ⟨hlength, hcodes, fun k hk hnot => by
          rw [hkept k hnot, List.getElem?_replicate, if_pos hk]⟩ }

theorem prefixPayload_ensures {α : Type} {nalUnitType : ℕ} {r : Reader α} {f : α → SeiContent M}
    {Q : SeiContent M → Prop} (h : r.Ensures fun a => IsPrefixSei nalUnitType → Q (f a)) :
    (PCCBitstreamReader.prefixPayload nalUnitType (r >>= fun a => pure (f a))).Ensures Q := by
  unfold PCCBitstreamReader.prefixPayload
  split_ifs with hfront
  · exact h.then_bind fun a ha => .pure (ha hfront)
  · exact fun _ _ _ hfail => nomatch hfail

section Reader

variable {others : SeiSyntax M} {messages : PCCSEI (SEI M)} {nalUnitType : ℕ}
  {before : List (SEI M)}

theorem seiContent_ensures (type : ℕ) {size : ℕ} (hsize : size < 2 ^ 31) :
    (PCCBitstreamReader.seiContent others before nalUnitType type size).Ensures
      (SeiContent.Received nalUnitType) := by
  unfold PCCBitstreamReader.seiContent
  split_ifs
  · exact .bind fun _ => .pure trivial
  · exact (userDataRegisteredItuTT35_ensures hsize).then_bind fun _ hsei => .pure hsei
  · exact .bind fun _ => .pure trivial
  · exact .bind fun _ => .pure trivial
  · apply prefixPayload_ensures
    exact fun c sei c' h hfront => ⟨hfront, componentCodecMapping_ensures c sei c' h⟩
  · apply prefixPayload_ensures
    refine fun c sei c' h hfront => ⟨hfront, instanceUpdates_ensures ?_ ?_ c sei c' h⟩
    · exact ⟨by decide, by decide, by decide⟩
    · refine (read_ensures_lt 2).then_bind fun _ hthreshold => ?_
      refine (read_ensures_lt 2).then_bind fun _ hpasses => ?_
      exact (read_ensures_lt 3).then_bind fun _ hfilter => .pure ⟨hthreshold, hpasses, hfilter⟩
  · apply prefixPayload_ensures
    refine fun c sei c' h hfront => ⟨hfront, instanceUpdates_ensures ?_ ?_ c sei c' h⟩
    · exact ⟨by decide, by decide⟩
    · refine .bind fun _ => ?_
      refine (read_ensures_lt 7).then_bind fun _ hgrid => ?_
      exact (read_ensures_lt 8).then_bind fun _ hthreshold => .pure ⟨hgrid, hthreshold⟩
  · exact .bind fun _ => .pure trivial

theorem ffCoded_ensures : PCCBitstreamReader.ffCoded.Ensures (· < 2 ^ 31) := by
  have hloop : ∀ fuel acc, (PCCBitstreamReader.ffLoop fuel acc).Ensures (· < 2 ^ 31) := by
    intro fuel
    induction fuel with
    | zero =>
      intro acc c value c' h
      cases h
    | succ fuel ih =>
      intro acc
      unfold PCCBitstreamReader.ffLoop
      refine .bind fun byte => ?_
      split_ifs with hlarge
      · intro c value c' h
        cases h
      · exact ih _
      · exact .pure (Nat.not_le.mp hlarge)
  unfold PCCBitstreamReader.ffCoded
  exact .bind fun _ => hloop _ _

/-- A message that has been read has no payload size. -/
theorem seiMessage_ensures :
    (PCCBitstreamReader.seiMessage (PCCBitstreamReader.seiPayload others) before
      nalUnitType).Ensures fun sei => sei.payloadSize = 0 ∧ sei.content.Received nalUnitType := by
  unfold PCCBitstreamReader.seiMessage PCCBitstreamReader.seiPayload
  refine .bind fun type => ?_
  refine ffCoded_ensures.then_bind fun size hsize => ?_
  refine (seiContent_ensures type hsize).then_bind fun content hcontent => ?_
  exact .bind fun _ => .pure ⟨rfl, hcontent⟩

end Reader

/-! ### What the writer makes of it -/

/-- What is left of an update that is written and read. -/
def InstanceUpdate.settled (initial : P) (update : InstanceUpdate P) : InstanceUpdate P :=
  if update.instanceCancelFlag then { instanceCancelFlag := true, parameters := initial }
  else if update.methodType = 1 then update
  else { update with parameters := initial }

/-- The last update of the instance codes all that there is. -/
structure InstanceUpdate.Settled (initial : P) (update : InstanceUpdate P) : Prop where
  canceled : update.instanceCancelFlag = true → update.methodType = 0
  noMethod : update.methodType ≠ 1 → update.parameters = initial

theorem InstanceUpdate.settled_eq_iff {initial : P} {update : InstanceUpdate P} :
    update.settled initial = update ↔ update.Settled initial := by
  obtain ⟨instanceCancelFlag, methodType, parameters⟩ := update
  unfold settled
  constructor
  · intro h
    split_ifs at h with hcanceled hone
    · obtain ⟨rfl, rfl, rfl⟩ := InstanceUpdate.mk.inj h
      exact ⟨fun _ => rfl, fun _ => rfl⟩
    · exact ⟨fun hc => absurd hc hcanceled, fun hne => absurd hone hne⟩
    · obtain ⟨-, -, rfl⟩ := InstanceUpdate.mk.inj h
      exact ⟨fun hc => absurd hc hcanceled, fun _ => rfl⟩
  · rintro ⟨hcanceled, hparameters⟩
    dsimp only at hcanceled hparameters ⊢
    split_ifs with hc hone
    · rw [hc, hcanceled hc, hparameters (by rw [hcanceled hc]; decide)]
    · rfl
    · rw [hparameters hone]

/-- The updates as a reader has them once more. -/
def InstanceUpdates.settled (initial : P) (sei : InstanceUpdates P) : InstanceUpdates P :=
  { sei with instances := sei.instances.map (InstanceUpdate.settled initial) }

theorem map_eq_self_iff {α : Type} {f : α → α} {l : List α} :
    l.map f = l ↔ ∀ a ∈ l, f a = a := by
  induction l with
  | nil => simp
  | cons a l ih => rw [List.map_cons, List.cons.injEq, ih, List.forall_mem_cons]

theorem InstanceUpdates.settled_eq_iff {initial : P} {sei : InstanceUpdates P} :
    sei.settled initial = sei ↔ ∀ update ∈ sei.instances, update.Settled initial := by
  unfold settled
  obtain ⟨persistenceFlag, resetFlag, instanceIndex, instances⟩ := sei
  rw [InstanceUpdates.mk.injEq]
  simp only [true_and, map_eq_self_iff, InstanceUpdate.settled_eq_iff]

theorem InstanceUpdate.settled_settled (initial : P) (update : InstanceUpdate P) :
    (update.settled initial).Settled initial := by
  unfold settled
  split_ifs with hcanceled hone
  · exact ⟨fun _ => rfl, fun _ => rfl⟩
  · exact ⟨fun h => absurd h hcanceled, fun h => absurd hone h⟩
  · exact ⟨fun h => absurd h hcanceled, fun _ => rfl⟩

theorem InstanceUpdates.Received.settled_coded {initial : P} {codedParameters : P → Prop}
    {sei : InstanceUpdates P} (h : sei.Received initial codedParameters)
    (hinitial : codedParameters initial) :
    (sei.settled initial).Coded initial codedParameters where
  length_lt := (List.length_map _).trans_lt h.length_lt
  length_eq := (List.length_map _).trans h.length_eq
  index_lt k hk := (h.index_lt k hk).trans_eq (List.length_map _).symm
  update settled hsettled := by
    obtain ⟨update, hupdate, rfl⟩ := List.mem_map.mp hsettled
    obtain ⟨hcanceled, hnoMethod⟩ := update.settled_settled initial
    refine ⟨hcanceled, ?_, hnoMethod, ?_⟩
    · unfold InstanceUpdate.settled
      split_ifs
      · exact Nat.two_pow_pos 8
      · exact h.methodType_lt update hupdate
      · exact h.methodType_lt update hupdate
    · unfold InstanceUpdate.settled
      split_ifs
      · exact hinitial
      · exact h.parameters update hupdate
      · exact hinitial
  noUpdate k hk hnot := by
    have hnew := h.noUpdate k (hk.trans_eq (List.length_map _)) hnot
    change (sei.instances.map _)[k]? = _
    rw [List.getElem?_map, hnew, Option.map_some]
    exact congrArg some (InstanceUpdate.settled_eq_iff.mpr ⟨nofun, fun _ => rfl⟩)

/-- What is not coded of an update is not needed to write it. -/
theorem instanceUpdates_settled (w : P → Writer Unit) (initial : P) (sei : InstanceUpdates P) :
    PCCBitstreamWriter.instanceUpdates w (sei.settled initial) =
      PCCBitstreamWriter.instanceUpdates w sei := by
  have hupdate : ∀ update : InstanceUpdate P,
      PCCBitstreamWriter.instanceUpdate w (update.settled initial) =
        PCCBitstreamWriter.instanceUpdate w update := by
    intro update
    obtain ⟨instanceCancelFlag, methodType, parameters⟩ := update
    unfold PCCBitstreamWriter.instanceUpdate InstanceUpdate.settled
    cases instanceCancelFlag with
    | true => rfl
    | false =>
      rw [if_neg nofun]
      dsimp only
      split_ifs with hone
      · rfl
      · simp only [hone, decide_false, Writer.when_false]
  have htable : PCCBitstreamWriter.indexedEntries (PCCBitstreamWriter.instanceUpdate w)
        (sei.instances.map (InstanceUpdate.settled initial)) sei.instanceIndex =
      PCCBitstreamWriter.indexedEntries (PCCBitstreamWriter.instanceUpdate w) sei.instances
        sei.instanceIndex := by
    refine Writer.forEach_congr fun k _ => ?_
    refine congrArg _ (funext fun _ => ?_)
    rw [List.getElem?_map]
    cases sei.instances[k]? with
    | none => rfl
    | some update =>
      rw [Option.map_some, Writer.ofOption_some, Writer.ofOption_some, pure_bind, pure_bind,
        hupdate]
  unfold PCCBitstreamWriter.instanceUpdates InstanceUpdates.settled
  dsimp only
  rw [htable]

/-! ### Sizes -/

theorem writeUvlc_atMost {value : ℕ} (h : value < 2 ^ 8) : Writer.AtMost (writeUvlc value) 17 := by
  intro p bs hrun
  have hlog : Nat.log2 (value + 1) < 9 := (Nat.log2_lt (Nat.succ_ne_zero value)).mpr (by omega)
  rw [length_writeUvlc (by omega) hrun]
  omega

theorem payloadAlignment_atMost : Writer.AtMost PCCBitstreamWriter.payloadAlignment 8 := by
  intro p bs h
  unfold PCCBitstreamWriter.payloadAlignment at h
  split_ifs at h
  · obtain ⟨-, rfl⟩ := Prod.mk.inj (Option.some.inj h)
    exact Nat.zero_le _
  · obtain ⟨⟨⟩, first, zeros, hfirst, hzeros, rfl⟩ := Writer.bind_run_eq_some.mp h
    obtain ⟨-, rfl⟩ := Prod.mk.inj (Option.some.inj hzeros)
    have hone := Writer.Sized.write 1 1 p first hfirst
    rw [List.length_append, List.length_replicate, hone]
    omega

/-- The updates take at most 42 bits each. -/
theorem InstanceUpdates.Coded.atMost {initial : P} {codedParameters : P → Prop}
    {sei : InstanceUpdates P} (h : sei.Coded initial codedParameters) {w : P → Writer Unit}
    (hw : ∀ parameters, Writer.AtMost (w parameters) 16) :
    Writer.AtMost (PCCBitstreamWriter.instanceUpdates w sei)
      (1 + (1 + (8 + sei.instanceIndex.length * (8 + (1 + (17 + 16)))))) := by
  have hflag := fun value => (Writer.Sized.flag value).atMost
  unfold PCCBitstreamWriter.instanceUpdates
  refine (hflag _).bind ((hflag _).bind ((Writer.Sized.write _ 8).atMost.bind ?_))
  refine Writer.AtMost.forEach fun k _ => (Writer.Sized.write k 8).atMost.bind ?_
  refine Writer.AtMost.ofOption_bind fun update hupdate => (hflag _).bind (Writer.AtMost.when ?_)
  have hmethod := (h.update update (List.mem_of_getElem? hupdate)).methodType_lt
  exact (writeUvlc_atMost hmethod).bind (Writer.AtMost.when (hw _))

/-- The bytes of a mapping: two, and for every id that is named a byte and its code, which ends
with a zero. -/
def SEIComponentCodecMapping.payloadBytes (sei : SEIComponentCodecMapping) : ℕ :=
  2 + (sei.codecId.map fun k => (sei.codec4cc.getD k []).length + 2).sum

/-- A code behind its id is padded in front of it. -/
theorem length_codeEntry {table : List (List UInt8)} {k : ℕ} {p : Phase} {bs : List Bool}
    (h : (do
      write k 8
      let element ← Writer.ofOption table[k]?
      writeString element) p = some ((), bs)) :
    bs.length = (8 - p.val) % 8 + 8 * ((table.getD k []).length + 2) ∧
      advance p bs.length = 0 := by
  obtain ⟨⟨⟩, first, rest, hfirst, hrest, rfl⟩ := Writer.bind_run_eq_some.mp h
  have hone := Writer.Sized.write k 8 p first hfirst
  rw [hone, show (8 : ℕ) = 8 * 1 from rfl, advance_eight_mul] at hrest
  cases hget : table[k]? with
  | none =>
    rw [hget] at hrest
    cases hrest
  | some code =>
    rw [hget, Writer.ofOption_some, pure_bind, writeString_run] at hrest
    obtain ⟨-, rfl⟩ := Prod.mk.inj (Option.some.inj hrest)
    have hlength : (first ++ (List.replicate ((8 - p.val) % 8) false ++
        (bitsOfBytes code ++ bitsOfNat 8 (0 : UInt8).toNat))).length =
          (8 - p.val) % 8 + 8 * (code.length + 2) := by
      simp only [List.length_append, List.length_replicate, length_bitsOfBytes, length_bitsOfNat,
        hone]
      omega
    rw [List.getD_eq_getElem?_getD, hget, Option.getD_some, hlength, ← advance_advance,
      advance_padding, advance_eight_mul]
    exact ⟨rfl, rfl⟩

theorem length_codeEntries {table : List (List UInt8)} (indices : List ℕ) :
    ∀ {p : Phase} {bs : List Bool},
      PCCBitstreamWriter.indexedEntries writeString table indices p = some ((), bs) →
      indices ≠ [] ∨ p = 0 →
      bs.length = (8 - p.val) % 8 +
          8 * (indices.map fun k => (table.getD k []).length + 2).sum := by
  induction indices with
  | nil =>
    intro p bs h hp
    obtain rfl := hp.resolve_left (absurd rfl)
    obtain ⟨-, rfl⟩ := Prod.mk.inj (Option.some.inj h)
    rfl
  | cons k indices ih =>
    intro p bs h _
    unfold PCCBitstreamWriter.indexedEntries at h
    rw [Writer.forEach_cons] at h
    obtain ⟨⟨⟩, first, rest, hfirst, hrest, rfl⟩ := Writer.bind_run_eq_some.mp h
    obtain ⟨hlength, hphase⟩ := length_codeEntry hfirst
    rw [hphase] at hrest
    have hothers := ih hrest (Or.inr rfl)
    rw [List.length_append, hlength, hothers, List.map_cons, List.sum_cons]
    have hzero : (8 - (0 : Phase).val) % 8 = 0 := rfl
    omega

theorem SEIComponentCodecMapping.Coded.length_payload {sei : SEIComponentCodecMapping}
    (h : sei.Coded) (hcancel : sei.componentCodecCancelFlag = false) {bs : List Bool}
    (hrun : PCCBitstreamWriter.componentCodecMapping sei 0 = some ((), bs)) :
    bs.length = 8 * sei.payloadBytes := by
  obtain ⟨hids, -⟩ := h.codecId hcancel
  obtain ⟨hcodes, -⟩ := h.codec4cc hcancel
  have hne : sei.codecId ≠ [] := by
    rintro hnil
    rw [hnil] at hids
    exact absurd hids (Nat.succ_ne_zero _).symm
  unfold PCCBitstreamWriter.componentCodecMapping at hrun
  rw [hcancel, Bool.not_false, Writer.when_true, takeD_of_length hcodes,
    takeD_of_length hids] at hrun
  obtain ⟨⟨⟩, flag, rest, hflag, hrest, rfl⟩ := Writer.bind_run_eq_some.mp hrun
  obtain ⟨⟨⟩, count, entries, hcount, hentries, rfl⟩ := Writer.bind_run_eq_some.mp hrest
  have hone := Writer.Sized.flag false 0 flag hflag
  have height := Writer.Sized.write _ 8 _ count hcount
  have hphase : advance (advance 0 flag.length) count.length = 1 := by
    rw [hone, height]
    rfl
  rw [hphase] at hentries
  have hlength := length_codeEntries sei.codecId hentries (Or.inl hne)
  have hseven : (8 - (1 : Phase).val) % 8 = 7 := rfl
  unfold payloadBytes
  rw [List.length_append, List.length_append, hone, height, hlength, hseven]
  omega

/-! ### Messages that come back -/

/-- What a reader has of a message behind those before it in its list, where both passes of the
writer have been over it. -/
def resent (others : SeiSyntax M) (messages : PCCSEI (SEI M)) (nalUnitType : ℕ)
    (before : List (SEI M)) (sei : SEI M) : Option (SEI M) := do
  let passed ← PCCBitstreamWriter.measuredSei others messages nalUnitType sei
  let written ← PCCBitstreamWriter.seiMessage others messages nalUnitType passed 0
  let read ← PCCBitstreamReader.seiMessage (PCCBitstreamReader.seiPayload others) before
    nalUnitType ⟨0, written.2⟩
  pure read.1

/-- A message that a reader has again as it was. The first pass finds no size in it, so there is
none for what is written by it; and its payload is behind an `int32_t`. -/
def SeiContent.Carried (others : SeiSyntax M) (messages : PCCSEI (SEI M)) (nalUnitType : ℕ)
    (before : List (SEI M)) : SeiContent M → Prop
  | .fillerPayload => False
  | .userDataRegisteredItuTT35 _ => True
  | .userDataUnregistered _ => False
  | .componentCodecMapping sei => sei.payloadBytes < 2 ^ 31
  | .occupancySynthesis sei => ∀ update ∈ sei.instances, update.Settled {}
  | .geometrySmoothing sei => ∀ update ∈ sei.instances, update.Settled {}
  | .reservedSeiMessage payloadByte => payloadByte = []
  | .other content => resent others messages nalUnitType before ⟨0, .other content⟩ =
    some ⟨0, .other content⟩

section Resent

variable {others : SeiSyntax M} {messages : PCCSEI (SEI M)} {nalUnitType : ℕ}
  {before : List (SEI M)} {content content' : SeiContent M} {type size : ℕ}

theorem PayloadComesBack.resent_eq
    (h : PayloadComesBack others messages nalUnitType before content type size) :
    resent others messages nalUnitType before ⟨0, content⟩ =
      if size < 2 ^ 31 then some ⟨0, content⟩ else none := by
  unfold resent
  rw [h.measuredSei_eq (Or.inl rfl), Option.bind_eq_bind, Option.bind_some]
  split_ifs with hsmall
  · obtain ⟨bs, hwrite, hread⟩ := h.seiMessage_roundTrip hsmall (Or.inr rfl) 0
    have hback := hread []
    rw [List.append_nil] at hback
    rw [hwrite, Option.bind_eq_bind, Option.bind_some, hback]
    rfl
  · have hnone : PCCBitstreamWriter.seiMessage others messages nalUnitType ⟨size, content⟩ 0 =
        none := by
      unfold PCCBitstreamWriter.seiMessage
      rw [h.payloadType, Writer.ofOption_some, pure_bind, h.measuredSei_eq (Or.inr rfl),
        Writer.ofOption_some, pure_bind, if_neg hsmall]
      obtain ⟨bs, hwrite, -⟩ := ffCoded_roundTrip h.type_lt 0
      rw [Writer.bind_run, hwrite]
      rfl
    rw [hnone]
    rfl

theorem PayloadComesBack.size_lt
    (h : PayloadComesBack others messages nalUnitType before content type size) {n : ℕ}
    (hmost : Writer.AtMost
      (PCCBitstreamWriter.seiContent others messages nalUnitType ⟨0, content⟩) n)
    (hn : n + 8 < 2 ^ 31) : size < 2 ^ 31 := by
  obtain ⟨bs, hbs, rfl⟩ := h.measured
  have hle := hmost.bind payloadAlignment_atMost 0 bs hbs
  omega

/-- Contents that are written alike. -/
theorem resent_congr (htype : content.payloadType others = content'.payloadType others)
    (hsame : ∀ n, PCCBitstreamWriter.seiContent others messages nalUnitType ⟨n, content⟩ =
      PCCBitstreamWriter.seiContent others messages nalUnitType ⟨n, content'⟩) :
    resent others messages nalUnitType before ⟨0, content⟩ =
      resent others messages nalUnitType before ⟨0, content'⟩ := by
  have hpayload : ∀ n, PCCBitstreamWriter.seiPayload others messages nalUnitType ⟨n, content⟩ =
      PCCBitstreamWriter.seiPayload others messages nalUnitType ⟨n, content'⟩ := by
    intro n
    unfold PCCBitstreamWriter.seiPayload
    rw [hsame]
  have hmessage : ∀ n, PCCBitstreamWriter.seiMessage others messages nalUnitType ⟨n, content⟩ =
      PCCBitstreamWriter.seiMessage others messages nalUnitType ⟨n, content'⟩ := by
    intro n
    unfold PCCBitstreamWriter.seiMessage PCCBitstreamWriter.measuredSei
    rw [htype, hpayload]
    cases PCCBitstreamWriter.seiPayload others messages nalUnitType ⟨n, content'⟩ 0 with
    | none => rfl
    | some run =>
      simp only [Option.map_some, Writer.ofOption_some, pure_bind, hpayload]
  unfold resent PCCBitstreamWriter.measuredSei
  rw [hpayload]
  cases PCCBitstreamWriter.seiPayload others messages nalUnitType ⟨0, content'⟩ 0 with
  | none => rfl
  | some run => simp only [Option.map_some, Option.bind_eq_bind, Option.bind_some, hmessage]

/-- The updates of instances, in either message about them. -/
theorem resent_instances_iff {initial : P} {codedParameters : P → Prop} {w : P → Writer Unit}
    {f : InstanceUpdates P → SeiContent M} (hfront : IsPrefixSei nalUnitType)
    (hinj : Function.Injective f)
    (htype : ∀ sei sei', (f sei).payloadType others = (f sei').payloadType others)
    (hwriter : ∀ n sei, PCCBitstreamWriter.seiContent others messages nalUnitType ⟨n, f sei⟩ =
      PCCBitstreamWriter.prefixPayload nalUnitType (PCCBitstreamWriter.instanceUpdates w sei))
    (hw : ∀ parameters, Writer.AtMost (w parameters) 16) {sei : InstanceUpdates P}
    (h : sei.Received initial codedParameters) (hinitial : codedParameters initial)
    (hcoded : (f (sei.settled initial)).Coded nalUnitType) :
    resent others messages nalUnitType before ⟨0, f sei⟩ = some ⟨0, f sei⟩ ↔
      ∀ update ∈ sei.instances, update.Settled initial := by
  obtain ⟨type, size, hback⟩ : ∃ type size, PayloadComesBack others messages nalUnitType before
    (f (sei.settled initial)) type size := hcoded.exists_payloadComesBack
  have hmost : Writer.AtMost (PCCBitstreamWriter.seiContent others messages nalUnitType
      ⟨0, f (sei.settled initial)⟩)
      (1 + (1 + (8 + sei.instanceIndex.length * (8 + (1 + (17 + 16)))))) := by
    rw [hwriter]
    unfold PCCBitstreamWriter.prefixPayload
    rw [if_pos hfront]
    exact (h.settled_coded hinitial).atMost hw
  have hlength := h.length_eq ▸ h.length_lt
  have hsmall : size < 2 ^ 31 := hback.size_lt hmost (by omega)
  have hsame : ∀ n, PCCBitstreamWriter.seiContent others messages nalUnitType ⟨n, f sei⟩ =
      PCCBitstreamWriter.seiContent others messages nalUnitType
        ⟨n, f (sei.settled initial)⟩ := by
    intro n
    rw [hwriter, hwriter, instanceUpdates_settled]
  have hsettled : resent others messages nalUnitType before ⟨0, f sei⟩ =
      some ⟨0, f (sei.settled initial)⟩ := by
    rw [resent_congr (htype sei (sei.settled initial)) hsame, hback.resent_eq, if_pos hsmall]
  rw [hsettled, Option.some.injEq, SEI.mk.injEq, hinj.eq_iff, InstanceUpdates.settled_eq_iff]
  exact and_iff_right rfl

/-- The vector is not looked at where the size is none. -/
theorem resent_reservedSeiMessage (payloadByte : List ℕ) :
    resent others messages nalUnitType before ⟨0, .reservedSeiMessage payloadByte⟩ =
      some ⟨0, .reservedSeiMessage []⟩ := by
  have hback : PayloadComesBack others messages nalUnitType before (.reservedSeiMessage [])
    RESERVED_SEI_MESSAGE 0 := reservedSeiMessage_payloadComesBack
  have hmeasured : ∀ bytes, PCCBitstreamWriter.measuredSei others messages nalUnitType
      ⟨0, .reservedSeiMessage bytes⟩ = some ⟨0, .reservedSeiMessage bytes⟩ := fun _ => rfl
  have hmessage : PCCBitstreamWriter.seiMessage others messages nalUnitType
      ⟨0, .reservedSeiMessage payloadByte⟩ = PCCBitstreamWriter.seiMessage others messages
        nalUnitType ⟨0, .reservedSeiMessage []⟩ := by
    unfold PCCBitstreamWriter.seiMessage
    rw [hmeasured, hmeasured]
    rfl
  have hempty := hback.resent_eq
  unfold resent at hempty ⊢
  rw [hmeasured, Option.bind_eq_bind, Option.bind_some] at hempty ⊢
  rw [hmessage, hempty]
  exact if_pos (Nat.two_pow_pos 31)

theorem resent_componentCodecMapping_iff (hfront : IsPrefixSei nalUnitType)
    {sei : SEIComponentCodecMapping} (h : sei.Coded) :
    resent others messages nalUnitType before ⟨0, .componentCodecMapping sei⟩ =
      some ⟨0, .componentCodecMapping sei⟩ ↔ sei.payloadBytes < 2 ^ 31 := by
  have hcoded : (SeiContent.componentCodecMapping (M := M) sei).Coded nalUnitType := ⟨hfront, h⟩
  obtain ⟨type, size, hback⟩ : ∃ type size, PayloadComesBack others messages nalUnitType before
    (.componentCodecMapping sei) type size := hcoded.exists_payloadComesBack
  have hsize : size < 2 ^ 31 ↔ sei.payloadBytes < 2 ^ 31 := by
    obtain ⟨bs, hbs, rfl⟩ := hback.measured
    obtain ⟨⟨⟩, payload, align, hpayload, halign, rfl⟩ := Writer.bind_run_eq_some.mp hbs
    change PCCBitstreamWriter.prefixPayload nalUnitType _ 0 = _ at hpayload
    unfold PCCBitstreamWriter.prefixPayload at hpayload
    rw [if_pos hfront] at hpayload
    by_cases hcancel : sei.componentCodecCancelFlag = true
    · have hle := payloadAlignment_atMost _ align halign
      have hsei := h.canceled hcancel
      have hone : payload.length = 1 := by
        rw [hsei] at hpayload
        exact Writer.Sized.flag true 0 payload hpayload
      have htwo : sei.payloadBytes = 2 := by rw [hsei]; rfl
      rw [List.length_append, hone, htwo]
      omega
    · have hlength := h.length_payload (Bool.eq_false_iff.mpr hcancel) hpayload
      rw [hlength, advance_eight_mul] at halign
      obtain ⟨-, rfl⟩ := Prod.mk.inj (Option.some.inj halign)
      rw [List.append_nil, hlength]
      omega
  rw [hback.resent_eq, ← hsize]
  split_ifs with hlt
  · exact iff_of_true rfl hlt
  · exact iff_of_false nofun hlt

theorem resent_userDataUnregistered (sei : SEIUserDataUnregistered) :
    resent others messages nalUnitType before ⟨0, .userDataUnregistered sei⟩ = none := by
  have hnone : PCCBitstreamWriter.measuredSei others messages nalUnitType
      ⟨0, .userDataUnregistered sei⟩ = none := by
    unfold PCCBitstreamWriter.measuredSei
    rw [Option.map_eq_none_iff, Option.eq_none_iff_forall_ne_some]
    rintro ⟨⟨⟩, bs⟩ hrun
    obtain ⟨⟨⟩, _, _, hcontent, -, -⟩ := Writer.bind_run_eq_some.mp hrun
    obtain ⟨⟨⟩, _, _, -, hrest, -⟩ := Writer.bind_run_eq_some.mp hcontent
    obtain ⟨_, _, _, hsize, -, -⟩ := Writer.bind_run_eq_some.mp hrest
    cases hsize
  unfold resent
  rw [hnone]
  rfl

/-- What a message that has been read comes back as. -/
theorem resent_eq_iff {sei : SEI M} (hsize : sei.payloadSize = 0)
    (h : sei.content.Received nalUnitType) :
    resent others messages nalUnitType before sei = some sei ↔
      sei.content.Carried others messages nalUnitType before := by
  obtain ⟨payloadSize, content⟩ := sei
  obtain rfl : payloadSize = 0 := hsize
  cases content with
  | fillerPayload => exact iff_of_false nofun id
  | userDataRegisteredItuTT35 sei =>
    refine iff_of_true ?_ trivial
    rw [h.1.payloadComesBack.resent_eq, if_pos h.2]
  | userDataUnregistered sei =>
    rw [resent_userDataUnregistered]
    exact iff_of_false nofun id
  | componentCodecMapping sei => exact resent_componentCodecMapping_iff h.1 h.2
  | occupancySynthesis sei =>
    have hinitial : OccupancySynthesisParameters.Coded {} := ⟨by decide, by decide, by decide⟩
    refine resent_instances_iff h.1 (fun _ _ => SeiContent.occupancySynthesis.inj)
      (fun _ _ => rfl) (fun _ _ => rfl) (fun parameters p bs hrun => ?_) h.2 hinitial
      ⟨h.1, h.2.settled_coded hinitial⟩
    have hseven := (Writer.Sized.write _ 2).bind ((Writer.Sized.write _ 2).bind
      (Writer.Sized.write _ 3)) p bs hrun
    omega
  | geometrySmoothing sei =>
    have hinitial : GeometrySmoothingParameters.Coded {} := ⟨by decide, by decide⟩
    refine resent_instances_iff h.1 (fun _ _ => SeiContent.geometrySmoothing.inj)
      (fun _ _ => rfl) (fun _ _ => rfl) (fun parameters p bs hrun => ?_) h.2 hinitial
      ⟨h.1, h.2.settled_coded hinitial⟩
    have hsixteen := (Writer.Sized.flag _).bind ((Writer.Sized.write _ 7).bind
      (Writer.Sized.write _ 8)) p bs hrun
    omega
  | reservedSeiMessage payloadByte =>
    rw [resent_reservedSeiMessage]
    change some (SEI.mk 0 (.reservedSeiMessage [])) = _ ↔ payloadByte = []
    rw [Option.some.injEq, SEI.mk.injEq, SeiContent.reservedSeiMessage.injEq]
    exact (and_iff_right rfl).trans eq_comm
  | other content => exact Iff.rfl

/-- The messages of a list, one behind the other. -/
def resentAll (others : SeiSyntax M) (messages : PCCSEI (SEI M)) (nalUnitType : ℕ) :
    List (SEI M) → List (SEI M) → Option (List (SEI M))
  | _, [] => some []
  | before, sei :: rest => do
    let back ← resent others messages nalUnitType before sei
    let rest ← resentAll others messages nalUnitType (before ++ [back]) rest
    pure (back :: rest)

theorem resentAll_eq_iff (list : List (SEI M)) : ∀ {before : List (SEI M)},
    resentAll others messages nalUnitType before list = some list ↔
      ∀ (i : ℕ) (sei : SEI M), list[i]? = some sei →
        resent others messages nalUnitType (before ++ list.take i) sei = some sei := by
  induction list with
  | nil => exact fun {before} => iff_of_true rfl fun i sei h => nomatch h
  | cons first rest ih =>
    intro before
    have hcons : resentAll others messages nalUnitType before (first :: rest) =
        some (first :: rest) ↔ resent others messages nalUnitType before first = some first ∧
          resentAll others messages nalUnitType (before ++ [first]) rest = some rest := by
      rw [resentAll]
      constructor
      · intro h
        obtain ⟨back, hback, h⟩ := Option.bind_eq_some_iff.mp h
        obtain ⟨others', hothers, h⟩ := Option.bind_eq_some_iff.mp h
        obtain ⟨rfl, rfl⟩ := List.cons.inj (Option.some.inj h)
        exact ⟨hback, hothers⟩
      · rintro ⟨hfirst, hrest⟩
        rw [hfirst, Option.bind_eq_bind, Option.bind_some, hrest]
        rfl
    rw [hcons, ih]
    constructor
    · rintro ⟨hfirst, hrest⟩ i sei hsei
      cases i with
      | zero =>
        obtain rfl := Option.some.inj hsei
        rwa [List.take_zero, List.append_nil]
      | succ i =>
        have hi := hrest i sei hsei
        rwa [List.append_assoc, List.singleton_append] at hi
    · intro h
      refine ⟨?_, fun i sei hsei => ?_⟩
      · have hzero := h 0 first rfl
        rwa [List.take_zero, List.append_nil] at hzero
      · rw [List.append_assoc, List.singleton_append]
        exact h (i + 1) sei hsei

end Resent

end V3C
