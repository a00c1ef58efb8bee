import V3C.Packing.AuxiliaryVideo
import V3C.Reconstruction.GeneratePointCloud
import V3C.Store.SortedMap

/-! Point sets: their points, the reordering of the points and what the checksum is computed of. -/
namespace V3C

/-- The coordinates of the normals are integers here. -/
structure PCCPointSet3 where
  positions : List PCCPoint3D
  colors : List PCCColor3B
  reflectances : List UInt16
  normals : List (ℤ × ℤ × ℤ)
  withNormals : Bool
  withColors : Bool
  withReflectances : Bool
  deriving DecidableEq

/-- Colours are compared channel by channel. -/
def PCCColor3B.less (a b : PCCColor3B) : Bool :=
  if a.r = b.r then
    if a.g = b.g then decide (a.b < b.b) else decide (a.g < b.g)
  else decide (a.r < b.r)

/-- The mean of each channel, rounded down. -/
def averageColor (colors : List PCCColor3B) : PCCColor3B where
  r := UInt8.ofNat ((colors.map fun color => color.r.toNat).sum / colors.length)
  g := UInt8.ofNat ((colors.map fun color => color.g.toNat).sum / colors.length)
  b := UInt8.ofNat ((colors.map fun color => color.b.toNat).sum / colors.length)

/-- The map of the indices of the points, by their three coordinates. -/
abbrev PositionMap := List (ℤ × List (ℤ × List (ℤ × List ℕ)))

/-- `map[x][y][z].push_back( i )` -/
def PositionMap.push (map : PositionMap) (position : PCCPoint3D) (i : ℕ) : PositionMap :=
  SortedMap.update position.x (fun mapY =>
    SortedMap.update position.y (fun mapZ =>
      SortedMap.update position.z (fun list => list.getD [] ++ [i]) (mapZ.getD []))
      (mapY.getD [])) map

def groupPositions (positions : List PCCPoint3D) : PositionMap :=
  positions.zipIdx.foldl (fun map entry => map.push entry.1 entry.2) []

def PositionMap.indexLists (map : PositionMap) : List (List ℕ) :=
  map.flatMap fun itX => itX.2.flatMap fun itY => itY.2.map fun itZ => itZ.2

namespace PCCPointSet3

def empty : PCCPointSet3 := ⟨[], [], [], [], false, false, false⟩

def resize (points : PCCPointSet3) (size : ℕ) : PCCPointSet3 :=
  { points with
    positions := resizeTo points.positions size
    colors := if points.withColors then resizeTo points.colors size else points.colors
    reflectances :=
      if points.withReflectances then resizeTo points.reflectances size else points.reflectances
    normals := if points.withNormals then resizeTo points.normals size else points.normals }

def addReflectances (points : PCCPointSet3) : PCCPointSet3 :=
  { points with withReflectances := true }.resize points.positions.length

def addPoint (points : PCCPointSet3) (position : PCCPoint3D) : PCCPointSet3 :=
  let index := points.positions.length
  let points := points.resize (index + 1)
  { points with positions := points.positions.set index position }

def addPointColor (points : PCCPointSet3) (position : PCCPoint3D) (color : PCCColor3B) :
    PCCPointSet3 :=
  let index := points.positions.length
  let points := { points with withColors := true }.resize (index + 1)
  { points with
    positions := points.positions.set index position
    colors := (resizeTo points.colors (index + 1)).set index color }

/-- The colours of two entries of a list of indices are compared. -/
def colorLess (points : PCCPointSet3) (list : List ℕ) (j indexMin : ℕ) : Option Bool := do
  let first ← list[j]?
  let second ← list[indexMin]?
  let color ← points.colors[first]?
  let colorMin ← points.colors[second]?
  some (color.less colorMin)

def swapEntries (list : List ℕ) (i j : ℕ) : Option (List ℕ) := do
  let first ← list[i]?
  let second ← list[j]?
  some ((list.set i second).set j first)

/-- A selection sort by colour. -/
def sortColor (points : PCCPointSet3) (list : List ℕ) : Option (List ℕ) :=
  (List.range list.length).foldlM (fun list i => do
    let indexMin ← (List.range' (i + 1) (list.length - (i + 1))).foldlM (fun indexMin j => do
      let less ← points.colorLess list j indexMin
      some (if less then j else indexMin)) i
    if i ≠ indexMin then swapEntries list i indexMin else some list) list

def sortEqual (points : PCCPointSet3) (listIndex : List ℕ) : Option (List ℕ) :=
  if listIndex.length > 1 then points.sortColor listIndex else some listIndex

/-- The points of one position are added with their colours. -/
def addColored (points : PCCPointSet3) (dropDuplicates : Bool) (newPointcloud : PCCPointSet3)
    (listIndex : List ℕ) : Option PCCPointSet3 := do
  let listIndex ← points.sortEqual listIndex
  if dropDuplicates then do
    let colors ← listIndex.mapM fun index => points.colors[index]?
    let first ← listIndex[0]?
    let position ← points.positions[first]?
    some (newPointcloud.addPointColor position (averageColor colors))
  else
    listIndex.foldlM (fun newPointcloud index => do
      let position ← points.positions[index]?
      let color ← points.colors[index]?
      some (newPointcloud.addPointColor position color)) newPointcloud

/-- The points of one position are added without colours. -/
def addPlain (points : PCCPointSet3) (newPointcloud : PCCPointSet3) (listIndex : List ℕ) :
    Option PCCPointSet3 :=
  listIndex.foldlM (fun newPointcloud index => do
    let position ← points.positions[index]?
    some (newPointcloud.addPoint position)) newPointcloud

/-- `reorder( newPointcloud, dropDuplicates )` -/
def reorderInto (points newPointcloud : PCCPointSet3) (dropDuplicates : Bool) :
    Option PCCPointSet3 :=
  let map := groupPositions points.positions
  if points.withColors then map.indexLists.foldlM (points.addColored dropDuplicates) newPointcloud
  else map.indexLists.foldlM points.addPlain newPointcloud

/-- The cloud that the points are added to. -/
def newPointcloud (points : PCCPointSet3) : PCCPointSet3 :=
  if points.withReflectances then empty.addReflectances else empty

def swap (points newPointcloud : PCCPointSet3) : PCCPointSet3 :=
  { points with
    positions := newPointcloud.positions
    colors := newPointcloud.colors
    reflectances := newPointcloud.reflectances
    normals := newPointcloud.normals }

def reorder (points : PCCPointSet3) : Option PCCPointSet3 :=
  (points.reorderInto points.newPointcloud false).map points.swap

/-- A coordinate is an `int16_t`, its lower byte first. -/
def coordinateBytes (c : ℤ) : List UInt8 :=
  [UInt8.ofNat (c % 256).toNat, UInt8.ofNat (c / 256 % 256).toNat]

/-- The bytes that `computeMd5` hashes. -/
def hashedBytes (points : PCCPointSet3) : List UInt8 :=
  (points.positions.flatMap fun position => coordinateBytes position.x ++
    coordinateBytes position.y ++ coordinateBytes position.z) ++
  (if points.withColors then points.colors.flatMap fun color => [color.r, color.g, color.b]
    else []) ++
  (if points.withReflectances then points.reflectances.flatMap fun reflectance =>
      [UInt8.ofNat reflectance.toNat, UInt8.ofNat (reflectance.toNat / 256)]
    else [])

/-- The bytes that `computeChecksum` hashes. -/
def checksumBytes (points : PCCPointSet3) (reorderPoints : Bool) : Option (List UInt8) :=
  if reorderPoints then (points.reorderInto points.newPointcloud true).map hashedBytes
  else some points.hashedBytes

end PCCPointSet3

end V3C
