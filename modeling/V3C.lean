import V3C.Codec.Bits
import V3C.Codec.Consumption
import V3C.Codec.ExpGolomb
import V3C.Codec.Frames
import V3C.Codec.Reader
import V3C.Codec.RoundTrip
import V3C.Codec.Traverse
import V3C.Codec.Writer
import V3C.Common.Connectivity
import V3C.Common.Integer
import V3C.Common.Word
import V3C.Memory.Heap
import V3C.Store.Keyed
import V3C.Bitstream.BufferInvariant
import V3C.Bitstream.FieldConsumption
import V3C.Bitstream.Fields
import V3C.Bitstream.PCCBitstream
import V3C.Bitstream.SyntaxElementRefinement
import V3C.Bitstream.SyntaxElementRoundTrip
import V3C.Syntax.FrameParameterSetExact
import V3C.Syntax.HighLevelSyntax
import V3C.Syntax.ParameterSetActivation
import V3C.Syntax.ParameterSetReader
import V3C.Syntax.ParameterSets
import V3C.Syntax.Tile
import V3C.Syntax.TileDataUnitExact
import V3C.Syntax.TileHeaderReader
import V3C.Syntax.TileHeaderRoundTrip
import V3C.Frame.AtlasFrameOrderCount
import V3C.Frame.ParameterSetReuse
import V3C.Frame.ReferenceListAgreement
import V3C.Frame.ReferenceLists
import V3C.Frame.TilePartitions
import V3C.Atlas.AtlasSubStream
import V3C.Atlas.ComputeCRC
import V3C.Atlas.NalFraming
import V3C.Atlas.NalUnitKinds
import V3C.Atlas.ReceivedSei
import V3C.Container.SampleStream
import V3C.Container.SampleStreamRoundTrip
import V3C.Unit.CompressedFile
import V3C.Unit.GroupOfFrames
import V3C.Unit.GroupSeparation
import V3C.Unit.VideoRouting
import V3C.Unit.VideoRoutingExact
import V3C.Video.Dilation
import V3C.Video.DilationBounds
import V3C.Video.EmulationPrevention
import V3C.Video.FormatRoundTrip
import V3C.Video.ImageExchange
import V3C.Video.ImagePlanes
import V3C.Video.OccupancyDownscaling
import V3C.Video.PCCVideoBitstream
import V3C.Packing.AuxiliaryLayout
import V3C.Packing.AuxiliaryRoundTrip
import V3C.Packing.BlockOwnership
import V3C.Packing.CanvasRectangle
import V3C.Packing.PackingTermination
import V3C.Packing.RegionTiles
import V3C.Packing.Horizon
import V3C.Packing.HorizonSoundness
import V3C.Packing.SpatialConsistencyTetris
import V3C.Packing.SpiralSearch
import V3C.Packing.TetrisSoundness
import V3C.Packing.TileAssignment
import V3C.Patch.BlockToPatch
import V3C.Patch.MergeAgreement
import V3C.Patch.PCCPatch
import V3C.Patch.PatchAgreement
import V3C.Patch.PatchComparators
import V3C.Patch.PatchFrameDataStructure
import V3C.Segmenter.ChunkCuts
import V3C.Segmenter.ConnectedComponents
import V3C.Segmenter.EomCodes
import V3C.Segmenter.GridRefinement
import V3C.Segmenter.RefinementSoundness
import V3C.Segmenter.SeparatedPoints
import V3C.Segmenter.SignalledDepth
import V3C.Reconstruction.BorderFiltering
import V3C.Reconstruction.BorderErosion
import V3C.Reconstruction.BoundaryPoints
import V3C.Reconstruction.CanvasMapping
import V3C.Reconstruction.ColorAssignment
import V3C.Reconstruction.DepthExtraction
import V3C.Reconstruction.DifferentialColors
import V3C.Reconstruction.DifferentialRecovery
import V3C.Reconstruction.EomLossless
import V3C.Reconstruction.FrameColors
import V3C.Reconstruction.NeighborDepth
import V3C.Reconstruction.PlrAgreement
import V3C.Reconstruction.SegmentedGeometry
import V3C.Reconstruction.SmoothingClouds
import V3C.Video.PushPullFilling
import V3C.PointSet.Checksum
import V3C.PointSet.PlyRoundTrip
import V3C.Transcoder.TranscodedFile
import V3C.Transcoder.VideoBuffer
import V3C.Transcoder.VideoBufferAccounting
import V3C.Unit.AtlasFile
