import V3C.Syntax.ParameterSets
import V3C.Unit.VideoStreams

/-! Groups of frames: the calls of `decode` on one sample stream, each with a context of its
own, and the profile check of a context. -/
namespace V3C
open Codec

variable {A : Type}

section Profile

/-- A later violation takes the place of an earlier one. -/
def violation (code : ℕ) (violated : Bool) (ret : ℕ) : ℕ := if violated then code else ret

def constraintViolations (ptci : ProfileToolsetConstraintsInformation) (ret : ℕ)
    (asps : AtlasSequenceParameterSetRbsp) : ℕ :=
  violation 6 (ptci.no45DegreeProjectionPatchConstraintFlag && asps.extendedProjectionEnabledFlag)
    (violation 5 (ptci.noEightOrientationsConstraintFlag && asps.useEightOrientationsFlag)
      (violation 4 (ptci.plrConstraintFlag && asps.plrEnabledFlag)
        (violation 2 (ptci.eomContraintFlag && asps.eomPatchEnabledFlag) ret)))

def basicViolations (atlas : VpsAtlas) (ret : ℕ) (asps : AtlasSequenceParameterSetRbsp) : ℕ :=
  violation 15 asps.extendedProjectionEnabledFlag
    (violation 14 asps.useEightOrientationsFlag
      (violation 13 asps.plrEnabledFlag
        (violation 12 (!atlas.multipleMapStreamsPresentFlag && 0 < atlas.mapCountMinus1)
          (violation 11 asps.eomPatchEnabledFlag ret))))

/-- The checks of `checkProfile` on the first atlas of the active parameter set. -/
def profileViolations (ptl : ProfileTierLevel) (atlas : VpsAtlas)
    (asps : List AtlasSequenceParameterSetRbsp) : ℕ :=
  let ptci := ptl.profileToolsetConstraintsInformation
  let ret := violation 7 (ptci.maxMapCountMinus1 < atlas.mapCountMinus1)
    (violation 3 (ptci.multipleMapStreamsConstraintFlag && atlas.multipleMapStreamsPresentFlag) 0)
  let ret := asps.foldl (constraintViolations ptci) ret
  if ptl.profileToolsetIdc = 0 then asps.foldl (basicViolations atlas) ret else ret

/-- The number of the violation, zero if there is none. The call ends the program when there is
no parameter set of the active id. -/
def PCCHighLevelSyntax.checkProfile (aspsList : A → List AtlasSequenceParameterSetRbsp)
    (syntax' : PCCHighLevelSyntax A) : Option ℕ :=
  match syntax'.atlasHLS with
  | [hls] => do
    let vps ← syntax'.getVps
    if vps.profileTierLevel.toolConstraintsPresentFlag then do
      let atlas ← vps.atlases[0]?
      pure (profileViolations vps.profileTierLevel atlas (aspsList hls.atlas))
    else pure 0
  | _ => some 1

end Profile

namespace PCCBitstreamReader

variable (codec : AtlasCodec A)

/-- The loop around `decode`: the context of every call, with the units that the call takes off
the stream. -/
def decodeAll : ℕ → List V3CUnit → Option (List (PCCHighLevelSyntax A × List V3CUnit))
  | _, [] => some []
  | 0, _ :: _ => none
  | calls + 1, units => do
    let (context, rest) ← decode codec {} units
    let more ← decodeAll calls rest
    pure ((context, units.take (units.length - rest.length)) :: more)

def unitHeader (unit : V3CUnit) : Option (ℕ × V3CUnitHeader) := do
  let (header, _) ← v3cUnitHeader ⟨0, bitsOfBytes unit.data⟩
  pure header

def unitVps (unit : V3CUnit) : Option V3CParameterSet := do
  let (_, c) ← v3cUnitHeader ⟨0, bitsOfBytes unit.data⟩
  let (vps, _) ← v3cParameterSet c
  pure vps

end PCCBitstreamReader

end V3C
