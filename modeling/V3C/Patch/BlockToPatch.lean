import V3C.Codec.Traverse
import V3C.Packing.FitPatch
import V3C.Patch.PatchFrameDataStructure

/-! The maps from the blocks of an atlas to its patches, and the byte strings of them that the
hashes are made of. -/
namespace V3C

/-- The members of a patch that its rectangle is made of. -/
structure HashPatch where
  u0 : ℕ
  v0 : ℕ
  sizeU0 : ℕ := 0
  sizeV0 : ℕ := 0

/-- A tile of the frame, with its layer. -/
structure HashTile where
  width : ℕ
  height : ℕ
  patches : List HashPatch
  rawPointsPatches : List HashPatch := []
  eomPatches : List HashPatch := []
  layer : AtlasTileLayerRbsp

structure HashFrame where
  asps : AtlasSequenceParameterSetRbsp
  afti : AtlasFrameTileInformation
  partitionPosX : List ℕ
  partitionPosY : List ℕ
  tiles : List HashTile

/-- The rows of a map, with a patch index in each block, or -1. -/
abbrev BlockMap := List (List ℤ)

namespace BlockMap

def block (map : BlockMap) (x y : ℕ) : Option ℤ := map[y]?.bind fun row => row[x]?

/-- A store, which has to be inside the map. -/
def setBlock (map : BlockMap) (x y : ℕ) (value : ℤ) : Option BlockMap := do
  let row ← map[y]?
  if x < row.length then some (map.set y (row.set x value)) else none

/-- `resize`: new rows are empty. -/
def resizeRows (map : BlockMap) (height : ℕ) : BlockMap :=
  map.take height ++ List.replicate (height - map.length) []

/-- A map without patches. -/
def unoccupied (width height : ℕ) : BlockMap := List.replicate height (List.replicate width (-1))

end BlockMap

namespace HashFrame

def patchPackingBlockSize (frame : HashFrame) : ℕ := 2 ^ frame.asps.log2PatchPackingBlockSize

/-- Rounded up to blocks. -/
def toBlocks (frame : HashFrame) (size : ℕ) : ℕ :=
  (size + (frame.patchPackingBlockSize - 1)) / frame.patchPackingBlockSize

end HashFrame

/-- A tile's map and that of the atlas. -/
structure BlockMaps where
  tile : BlockMap
  atlas : BlockMap

namespace PCCCodec

/-- The position of a patch in the list of its kind. One of no kind keeps the position zero. -/
def p2pMap (type : PCCTileType) (patches : List PatchInformationData) (p : ℕ) : Option ℕ := do
  let kind (patchMode : ℕ) : ℕ := match getPatchType type patchMode with
    | .rawPatch => 1
    | .eomPatch => 2
    | .errorPatch => 3
    | _ => 0
  let pid ← patches[p]?
  if kind pid.patchMode = 3 then some 0
  else some (((patches.take p).filter fun earlier =>
    kind earlier.patchMode = kind pid.patchMode).length)

/-- A block of a projected patch. Without the precedence flag the last patch stays. -/
def markBlock (frame : HashFrame) (tileOffset origin : ℕ × ℕ) (p offsetPatch : ℕ)
    (maps : BlockMaps) (block : ℕ × ℕ) : Option BlockMaps := do
  let x := origin.1 + block.1
  let y := origin.2 + block.2
  let free ← (if frame.asps.patchPrecedenceOrderFlag then
      (maps.tile.block x y).map fun value => decide (value = -1)
    else some true)
  if free then
    let tile ← maps.tile.setBlock x y p
    let atlas ← maps.atlas.setBlock (tileOffset.1 + x) (tileOffset.2 + y) (p + offsetPatch)
    some ⟨tile, atlas⟩
  else some maps

/-- A block of a patch in the auxiliary video. -/
def markAuxiliaryBlock (tileOffset origin : ℕ × ℕ) (p offsetPatch : ℕ) (maps : BlockMaps)
    (block : ℕ × ℕ) : Option BlockMaps := do
  let tile ← maps.tile.setBlock block.1 block.2 p
  let atlas ← maps.atlas.setBlock (tileOffset.1 + origin.1 + block.1)
    (tileOffset.2 + origin.2 + block.2) (p + offsetPatch)
  some ⟨tile, atlas⟩

/-- The blocks of a patch in the auxiliary video, as many as its position has. -/
def markAuxiliary (frame : HashFrame) (tileOffset : ℕ × ℕ) (p offsetPatch : ℕ) (maps : BlockMaps)
    (patch : HashPatch) : Option BlockMaps :=
  (grid (frame.toBlocks patch.u0) (frame.toBlocks patch.v0)).foldlM
    (markAuxiliaryBlock tileOffset
      (patch.u0 / frame.patchPackingBlockSize, patch.v0 / frame.patchPackingBlockSize) p
      offsetPatch) maps

def markPatch (frame : HashFrame) (tile : HashTile) (tileOffset : ℕ × ℕ) (offsetPatch : ℕ)
    (maps : BlockMaps) (p : ℕ) : Option BlockMaps := do
  let type := tile.layer.header.type
  let pid ← tile.layer.dataUnit.patchInformationData[p]?
  let index ← p2pMap type tile.layer.dataUnit.patchInformationData p
  match getPatchType type pid.patchMode with
  | .rawPatch =>
    if pid.rawPatchDataUnit.patchInAuxiliaryVideoFlag then do
      let patch ← tile.rawPointsPatches[index]?
      markAuxiliary frame tileOffset p offsetPatch maps patch
    else some maps
  | .eomPatch =>
    if pid.eomPatchDataUnit.patchInAuxiliaryVideoFlag then do
      let patch ← tile.eomPatches[index]?
      markAuxiliary frame tileOffset p offsetPatch maps patch
    else some maps
  | _ => do
    let patch ← tile.patches[index]?
    (grid (frame.toBlocks patch.sizeU0) (frame.toBlocks patch.sizeV0)).foldlM
      (markBlock frame tileOffset
        (patch.u0 / frame.patchPackingBlockSize, patch.v0 / frame.patchPackingBlockSize) p
        offsetPatch) maps

def HashTile.patchCount (tile : HashTile) : ℕ :=
  tile.patches.length + tile.rawPointsPatches.length + tile.eomPatches.length

/-- One tile: the rows of all maps are resized before its own map is made. -/
def markTile (frame : HashFrame) (state : List BlockMap × BlockMap × ℕ) (tile : HashTile × ℕ) :
    Option (List BlockMap × BlockMap × ℕ) := do
  let (tileMaps, atlasMap, offsetPatch) := state
  let (tile, tileIdx) := tile
  let topLeftPartitionIdx ← frame.afti.topLeftPartitionIdx[tileIdx]?
  let numPartitionColumns := frame.afti.numPartitionColumnsMinus1 + 1
  let posX ← frame.partitionPosX[topLeftPartitionIdx % numPartitionColumns]?
  let posY ← frame.partitionPosY[topLeftPartitionIdx / numPartitionColumns]?
  let tileOffset := (posX / frame.patchPackingBlockSize, posY / frame.patchPackingBlockSize)
  let width := frame.toBlocks tile.width
  let height := frame.toBlocks tile.height
  let maps ← (List.range (HashTile.patchCount tile)).foldlM
    (markPatch frame tile tileOffset offsetPatch) ⟨.unoccupied width height, atlasMap⟩
  some ((tileMaps.map fun map => map.resizeRows height).set tileIdx maps.tile, maps.atlas,
    offsetPatch + HashTile.patchCount tile)

/-- The maps of the tiles and that of the atlas. -/
def getB2PHashPatchParams (frame : HashFrame) : Option (List BlockMap × BlockMap) := do
  let (tileMaps, atlasMap, _) ← frame.tiles.zipIdx.foldlM (markTile frame)
    (frame.tiles.map fun _ => [],
      .unoccupied (frame.toBlocks frame.asps.frameWidth) (frame.toBlocks frame.asps.frameHeight), 0)
  some (tileMaps, atlasMap)

/-- The two bytes of a block. The value is a `uint8_t` before it is taken apart. -/
def blockBytes (value : ℤ) : List UInt8 :=
  let b2pVal := ((if value = -1 then 0xFFFF else value) % 2 ^ 8).toNat
  [UInt8.ofNat b2pVal, UInt8.ofNat (b2pVal / 2 ^ 8)]

def atlasBlockToPatchByteString (atlasB2p : BlockMap) : List UInt8 :=
  atlasB2p.flatMap fun row => row.flatMap blockBytes

def tileBlockToPatchByteString (tileId : ℕ) (tileB2p : List BlockMap) : Option (List UInt8) :=
  tileB2p[tileId]?.map fun map => map.flatMap fun row => row.flatMap blockBytes

end PCCCodec

namespace BlockMap

structure Sized (map : BlockMap) (width height : ℕ) : Prop where
  rows : map.length = height
  columns : ∀ row ∈ map, row.length = width

/-- The entries that the maps of a frame may have. -/
def InRange (map : BlockMap) : Prop := ∀ row ∈ map, ∀ value ∈ row, -1 ≤ value ∧ value ≤ 65534

/-- The maps of equal dimensions. -/
def ofSize (width height : ℕ) : Set BlockMap := {map | map.Sized width height ∧ map.InRange}

theorem sized_unoccupied (width height : ℕ) : (unoccupied width height).Sized width height where
  rows := List.length_replicate
  columns row hrow := by
    rw [List.eq_of_mem_replicate hrow, List.length_replicate]

theorem Sized.setBlock {map map' : BlockMap} {width height x y : ℕ} {value : ℤ}
    (h : map.Sized width height) (hset : map.setBlock x y value = some map') :
    map'.Sized width height := by
  obtain ⟨row, hrow, hset⟩ := Option.bind_eq_some_iff.mp hset
  obtain ⟨-, heq⟩ := Option.ite_none_right_eq_some.mp hset
  obtain rfl := Option.some.inj heq
  refine ⟨List.length_set.trans h.rows, ?_⟩
  intro row' hrow'
  obtain hmem | rfl := List.mem_or_eq_of_mem_set hrow'
  · exact h.columns row' hmem
  · rw [List.length_set]
    exact h.columns row (List.mem_of_getElem? hrow)

@[simp] theorem length_resizeRows (map : BlockMap) (height : ℕ) :
    (map.resizeRows height).length = height := by
  unfold resizeRows
  rw [List.length_append, List.length_take, List.length_replicate]
  omega

theorem resizeRows_self {map : BlockMap} {height : ℕ} (h : map.length = height) :
    map.resizeRows height = map := by
  unfold resizeRows
  rw [List.take_of_length_le h.le, h, Nat.sub_self, List.replicate_zero, List.append_nil]

end BlockMap

namespace PCCCodec

/-! ### The byte strings -/

/-- Every entry has the bytes of another one. -/
theorem exists_sameBytes {value : ℤ} (hlow : -1 ≤ value) (hhigh : value ≤ 65534) :
    ∃ other : ℤ, other ≠ value ∧ (-1 ≤ other ∧ other ≤ 65534) ∧
      blockBytes other = blockBytes value := by
  have hsame (a b : ℤ) (ha : a ≠ -1) (hb : b ≠ -1) (h : a % 2 ^ 8 = b % 2 ^ 8) :
      blockBytes a = blockBytes b := by
    unfold blockBytes
    rw [if_neg ha, if_neg hb, h]
  by_cases hnone : value = -1
  · subst hnone
    exact ⟨255, by decide, by decide, rfl⟩
  · by_cases hbyte : value < 256
    · exact ⟨value + 256, by omega, by omega, hsame _ _ (by omega) hnone (by omega)⟩
    · exact ⟨value - 256, by omega, by omega, hsame _ _ (by omega) hnone (by omega)⟩

theorem exists_collision {map : BlockMap} {width height : ℕ}
    (h : map ∈ BlockMap.ofSize width height) (hwidth : 0 < width) (hheight : 0 < height) :
    ∃ other ∈ BlockMap.ofSize width height, other ≠ map ∧
      atlasBlockToPatchByteString other = atlasBlockToPatchByteString map := by
  obtain ⟨⟨hrows, hcolumns⟩, hrange⟩ := h
  obtain ⟨row, rows, rfl⟩ := List.exists_cons_of_length_pos (hrows ▸ hheight)
  have hrow := hcolumns row List.mem_cons_self
  obtain ⟨value, values, rfl⟩ := List.exists_cons_of_length_pos (hrow ▸ hwidth)
  obtain ⟨hvalue, hvalues⟩ := List.forall_mem_cons.mp (hrange _ List.mem_cons_self)
  obtain ⟨other, hne, hother, hbytes⟩ := exists_sameBytes hvalue.1 hvalue.2
  refine ⟨(other :: values) :: rows, ⟨⟨hrows, ?_⟩, ?_⟩, ?_, ?_⟩
  · exact List.forall_mem_cons.mpr ⟨hrow, (List.forall_mem_cons.mp hcolumns).2⟩
  · exact List.forall_mem_cons.mpr
      ⟨List.forall_mem_cons.mpr ⟨hother, hvalues⟩, (List.forall_mem_cons.mp hrange).2⟩
  · exact fun heq => hne (List.cons.inj (List.cons.inj heq).1).1
  · unfold atlasBlockToPatchByteString
    simp only [List.flatMap_cons, hbytes]

/-- The byte strings tell maps apart only where there is nothing to tell. -/
theorem byteString_injOn_iff (width height : ℕ) :
    Set.InjOn atlasBlockToPatchByteString (BlockMap.ofSize width height) ↔
      width = 0 ∨ height = 0 := by
  constructor
  · intro hinj
    by_contra hblocks
    obtain ⟨hwidth, hheight⟩ := not_or.mp hblocks
    have hrange : (BlockMap.unoccupied width height).InRange := by
      intro row hrow value hvalue
      rw [List.eq_of_mem_replicate hrow] at hvalue
      rw [List.eq_of_mem_replicate hvalue]
      decide
    have hmem : BlockMap.unoccupied width height ∈ BlockMap.ofSize width height :=
      ⟨BlockMap.sized_unoccupied width height, hrange⟩
    obtain ⟨other, hother, hne, hbytes⟩ :=
      exists_collision hmem (Nat.pos_of_ne_zero hwidth) (Nat.pos_of_ne_zero hheight)
    exact hne (hinj hother hmem hbytes)
  · rintro hempty map ⟨hmap, -⟩ map' ⟨hmap', -⟩ -
    obtain rfl | rfl := hempty
    · have hrows (m : BlockMap) (hm : m.Sized 0 height) : m = List.replicate height [] :=
        List.eq_replicate_iff.mpr
          ⟨hm.rows, fun row hrow => List.length_eq_zero_iff.mp (hm.columns row hrow)⟩
      rw [hrows map hmap, hrows map' hmap']
    · rw [List.length_eq_zero_iff.mp hmap.rows, List.length_eq_zero_iff.mp hmap'.rows]

/-! ### The maps -/

section

variable {frame : HashFrame} {tile : HashTile} {tileOffset origin block : ℕ × ℕ}
  {p offsetPatch width height : ℕ} {maps maps' : BlockMaps}

theorem markBlock_sized (hmark : markBlock frame tileOffset origin p offsetPatch maps block =
    some maps') (h : maps.tile.Sized width height) : maps'.tile.Sized width height := by
  obtain ⟨free, -, hmark⟩ := Option.bind_eq_some_iff.mp hmark
  split_ifs at hmark
  · obtain ⟨tile, htile, hmark⟩ := Option.bind_eq_some_iff.mp hmark
    obtain ⟨atlas, -, hmark⟩ := Option.bind_eq_some_iff.mp hmark
    obtain rfl := Option.some.inj hmark
    exact h.setBlock htile
  · obtain rfl := Option.some.inj hmark
    exact h

theorem markAuxiliaryBlock_sized
    (hmark : markAuxiliaryBlock tileOffset origin p offsetPatch maps block = some maps')
    (h : maps.tile.Sized width height) : maps'.tile.Sized width height := by
  obtain ⟨tile, htile, hmark⟩ := Option.bind_eq_some_iff.mp hmark
  obtain ⟨atlas, -, hmark⟩ := Option.bind_eq_some_iff.mp hmark
  obtain rfl := Option.some.inj hmark
  exact h.setBlock htile

/-- The patches of a tile leave the size of its map as it is. -/
theorem markPatch_sized
    (hmark : markPatch frame tile tileOffset offsetPatch maps p = some maps')
    (h : maps.tile.Sized width height) : maps'.tile.Sized width height := by
  have hauxiliary {patch : HashPatch}
      (hmark : markAuxiliary frame tileOffset p offsetPatch maps patch = some maps') :
      maps'.tile.Sized width height :=
    Codec.inv_of_foldlM (P := fun _ maps => maps.tile.Sized width height) hmark h
      fun _ _ _ _ _ hsized hblock => markAuxiliaryBlock_sized hblock hsized
  obtain ⟨pid, -, hmark⟩ := Option.bind_eq_some_iff.mp hmark
  obtain ⟨index, -, hmark⟩ := Option.bind_eq_some_iff.mp hmark
  split at hmark
  · split_ifs at hmark
    · obtain ⟨patch, -, hmark⟩ := Option.bind_eq_some_iff.mp hmark
      exact hauxiliary hmark
    · obtain rfl := Option.some.inj hmark
      exact h
  · split_ifs at hmark
    · obtain ⟨patch, -, hmark⟩ := Option.bind_eq_some_iff.mp hmark
      exact hauxiliary hmark
    · obtain rfl := Option.some.inj hmark
      exact h
  · obtain ⟨patch, -, hmark⟩ := Option.bind_eq_some_iff.mp hmark
    exact Codec.inv_of_foldlM (P := fun _ maps => maps.tile.Sized width height) hmark h
      fun _ _ _ _ _ hsized hblock => markBlock_sized hblock hsized

/-- What a tile does to the maps: its own is new, and the others get its number of rows. -/
theorem markTile_cases {state state' : List BlockMap × BlockMap × ℕ} {tileIdx : ℕ}
    (h : markTile frame state (tile, tileIdx) = some state') :
    ∃ map : BlockMap, map.Sized (frame.toBlocks tile.width) (frame.toBlocks tile.height) ∧
      state'.1 = (state.1.map fun map => map.resizeRows (frame.toBlocks tile.height)).set tileIdx
        map := by
  obtain ⟨topLeftPartitionIdx, -, h⟩ := Option.bind_eq_some_iff.mp h
  obtain ⟨posX, -, h⟩ := Option.bind_eq_some_iff.mp h
  obtain ⟨posY, -, h⟩ := Option.bind_eq_some_iff.mp h
  obtain ⟨maps, hmaps, h⟩ := Option.bind_eq_some_iff.mp h
  obtain rfl := Option.some.inj h
  refine ⟨maps.tile, ?_, rfl⟩
  exact Codec.inv_of_foldlM
    (P := fun _ maps => maps.tile.Sized (frame.toBlocks tile.width) (frame.toBlocks tile.height))
    hmaps (BlockMap.sized_unoccupied _ _)
    fun _ _ _ _ _ hsized hpatch => markPatch_sized hpatch hsized

end

/-- The maps after some of the tiles. -/
structure Resized (frame : HashFrame) (visited : List (HashTile × ℕ)) (tileMaps : List BlockMap) :
    Prop where
  length : tileMaps.length = frame.tiles.length
  last : ∀ tile ∈ visited.getLast?, ∀ map ∈ tileMaps,
    map.length = frame.toBlocks tile.1.height
  sized : (∀ tile ∈ frame.tiles, ∀ tile' ∈ frame.tiles,
      frame.toBlocks tile.height = frame.toBlocks tile'.height) →
    ∀ tile ∈ visited, ∀ map, tileMaps[tile.2]? = some map →
      map.Sized (frame.toBlocks tile.1.width) (frame.toBlocks tile.1.height)

theorem Resized.markTile {frame : HashFrame} {visited : List (HashTile × ℕ)} {tile : HashTile × ℕ}
    {state state' : List BlockMap × BlockMap × ℕ} (h : Resized frame visited state.1)
    (hvisited : visited ++ [tile] <+: frame.tiles.zipIdx)
    (hmark : PCCCodec.markTile frame state tile = some state') :
    Resized frame (visited ++ [tile]) state'.1 := by
  obtain ⟨own, hown, heq⟩ := markTile_cases hmark
  have hmem (other : HashTile × ℕ) (hother : other ∈ visited ++ [tile]) :
      frame.tiles[other.2]? = some other.1 :=
    List.mem_zipIdx_iff_getElem?.mp (hvisited.subset hother)
  have htile := hmem tile (List.mem_append_right _ List.mem_cons_self)
  rw [heq]
  constructor
  · rw [List.length_set, List.length_map, h.length]
  · rw [List.getLast?_concat]
    rintro _ ⟨⟩ map hmap
    obtain hmap | rfl := List.mem_or_eq_of_mem_set hmap
    · obtain ⟨before, -, rfl⟩ := List.mem_map.mp hmap
      exact BlockMap.length_resizeRows _ _
    · exact hown.rows
  · intro hheights other hother map hmap
    by_cases hsame : tile.2 = other.2
    · have hfirst : tile.1 = other.1 :=
        Option.some.inj (htile.symm.trans (hsame ▸ hmem other hother))
      rw [← hsame] at hmap
      obtain rfl : own = map := by
        obtain ⟨hlt, hget⟩ := List.getElem?_eq_some_iff.mp hmap
        rw [List.getElem_set_self] at hget
        exact hget
      rw [← hfirst]
      exact hown
    · rw [List.getElem?_set_ne hsame, List.getElem?_map] at hmap
      obtain ⟨before, hbefore, rfl⟩ := Option.map_eq_some_iff.mp hmap
      have hvisited : other ∈ visited := by
        obtain hvisited | hlast := List.mem_append.mp hother
        · exact hvisited
        · exact absurd (congrArg Prod.snd (List.mem_singleton.mp hlast)).symm hsame
      have hsized := h.sized hheights other hvisited before hbefore
      have hheight := hheights other.1 (List.mem_of_getElem? (hmem other hother)) tile.1
        (List.mem_of_getElem? htile)
      rw [← hheight, BlockMap.resizeRows_self hsized.rows]
      exact hsized

/-- Every tile has a map of its own size if and only if all tiles have the same number of rows. -/
theorem ownSizes_iff {frame : HashFrame} {tileMaps : List BlockMap} {atlasMap : BlockMap}
    (h : getB2PHashPatchParams frame = some (tileMaps, atlasMap)) :
    (∀ (tileIdx : ℕ) (tile : HashTile) (map : BlockMap), frame.tiles[tileIdx]? = some tile →
      tileMaps[tileIdx]? = some map →
      map.Sized (frame.toBlocks tile.width) (frame.toBlocks tile.height)) ↔
    ∀ tile ∈ frame.tiles, ∀ tile' ∈ frame.tiles,
      frame.toBlocks tile.height = frame.toBlocks tile'.height := by
  obtain ⟨state, hrun, heq⟩ := Option.bind_eq_some_iff.mp h
  obtain ⟨rfl, rfl⟩ := Prod.mk.inj (Option.some.inj heq)
  have hresized : Resized frame frame.tiles.zipIdx state.1 :=
    Codec.inv_of_foldlM_prefix (P := fun visited state => Resized frame visited state.1) hrun
      ⟨List.length_map _, (fun _ hnone => nomatch hnone), (fun _ _ hnone => nomatch hnone)⟩
      (fun _ _ _ _ hvisited h hmark => h.markTile hvisited hmark)
  constructor
  · intro hown
    have hlast (tile : HashTile) (htile : tile ∈ frame.tiles) :
        ∃ last ∈ frame.tiles.zipIdx.getLast?,
          frame.toBlocks tile.height = frame.toBlocks last.1.height := by
      obtain ⟨tileIdx, hget⟩ := List.mem_iff_getElem?.mp htile
      have hlt : tileIdx < state.1.length :=
        hresized.length ▸ (List.getElem?_eq_some_iff.mp hget).1
      have hmem : (tile, tileIdx) ∈ frame.tiles.zipIdx := List.mem_zipIdx_iff_getElem?.mpr hget
      have hne : frame.tiles.zipIdx ≠ [] := List.ne_nil_of_mem hmem
      refine ⟨_, List.getLast?_eq_some_getLast hne, ?_⟩
      rw [← (hown tileIdx tile _ hget (List.getElem?_eq_getElem hlt)).rows]
      exact hresized.last _ (List.getLast?_eq_some_getLast hne) _ (List.getElem_mem hlt)
    intro tile htile tile' htile'
    obtain ⟨last, hmem, heq⟩ := hlast tile htile
    obtain ⟨last', hmem', heq'⟩ := hlast tile' htile'
    obtain rfl := Option.some.inj (hmem.symm.trans hmem')
    exact heq.trans heq'.symm
  · intro hheights tileIdx tile map htile hmap
    exact hresized.sized hheights (tile, tileIdx) (List.mem_zipIdx_iff_getElem?.mpr htile) map hmap

/-- The patches whose rectangle has a block of the tile. Patches in the auxiliary video have
none. -/
def coveringPatches (tile : HashTile) (x y : ℕ) : List ℕ :=
  (List.range (HashTile.patchCount tile)).filter fun p =>
    match tile.layer.dataUnit.patchInformationData[p]?,
      p2pMap tile.layer.header.type tile.layer.dataUnit.patchInformationData p with
    | some pid, some index =>
      match getPatchType tile.layer.header.type pid.patchMode, tile.patches[index]? with
      | .rawPatch, _ => false
      | .eomPatch, _ => false
      | _, some patch =>
        patch.u0 ≤ x && x < patch.u0 + patch.sizeU0 && patch.v0 ≤ y && y < patch.v0 + patch.sizeV0
      | _, none => false
    | _, _ => false

/-- The first or the last patch of a block, by the precedence flag. -/
def expectedBlock (frame : HashFrame) (tile : HashTile) (x y : ℕ) : ℤ :=
  let patch := if frame.asps.patchPrecedenceOrderFlag then (coveringPatches tile x y).head?
    else (coveringPatches tile x y).getLast?
  match patch with
  | some p => p
  | none => -1

/-- Each tile has a map of its own size with its patches, and the byte strings tell maps apart. -/
structure BlockHashSound (frame : HashFrame) : Prop where
  maps : ∃ tileMaps atlasMap, getB2PHashPatchParams frame = some (tileMaps, atlasMap) ∧
    ∀ (tileIdx : ℕ) (tile : HashTile), frame.tiles[tileIdx]? = some tile →
      ∃ map, tileMaps[tileIdx]? = some map ∧
        map.Sized (frame.toBlocks tile.width) (frame.toBlocks tile.height) ∧
        ∀ x < frame.toBlocks tile.width, ∀ y < frame.toBlocks tile.height,
          map.block x y = some (expectedBlock frame tile x y)
  atlas : ∀ width height : ℕ,
    Set.InjOn atlasBlockToPatchByteString (BlockMap.ofSize width height)
  tile : ∀ (width height tileId : ℕ) (tileMaps tileMaps' : List BlockMap) (map map' : BlockMap),
    tileMaps[tileId]? = some map → tileMaps'[tileId]? = some map' →
    map ∈ BlockMap.ofSize width height → map' ∈ BlockMap.ofSize width height →
    tileBlockToPatchByteString tileId tileMaps = tileBlockToPatchByteString tileId tileMaps' →
    map = map'

/-- A frame of one tile of one block, with a projected patch on it. -/
def blockFrame : HashFrame where
  asps := { frameWidth := 1, frameHeight := 1 }
  afti := {}
  partitionPosX := [0]
  partitionPosY := [0]
  tiles := [
    { width := 1
      height := 1
      patches := [{ u0 := 0, v0 := 0, sizeU0 := 1, sizeV0 := 1 }]
      layer :=
        { header := { type := .iTile }
          dataUnit := { patchInformationData := [{ patchMode := I_INTRA }] } } }]

example : getB2PHashPatchParams blockFrame = some ([[[0]]], [[0]]) := by decide

end PCCCodec

end V3C
