import Dxmt.ListSlots
import Dxmt.FenceLocality
import Dxmt.Tracker
import Dxmt.Hazard
import Dxmt.Barrier
import Dxmt.CommandQueue
import Dxmt.RingBump
import Dxmt.Visibility
import Dxmt.OcclusionQuery
import Dxmt.EncoderOrder
import Dxmt.PassMerge
import Dxmt.TaskScheduler
import Dxmt.Staging
import Dxmt.Dynamic
import Dxmt.BindingHazard
import Dxmt.BindingTable
import Dxmt.EncoderStream
import Dxmt.BufferUpdates
import Dxmt.CommandAllocator
import Dxmt.ResourceUse
import Dxmt.RootSignature
import Dxmt.ReplayRecords
import Dxmt.GraphicsBatch
import Dxmt.Footprint
import Dxmt.ReplayTimeline
import Dxmt.Fence
import Dxmt.OperandMask
import Dxmt.BufferBounds
import Dxmt.VertexInput
import Dxmt.RowCopy
import Dxmt.TextureCopy
import Dxmt.AirBuilder
import Dxmt.TextureOps
import Dxmt.DxilTextureOps
import Dxmt.FrontEnds
import Dxmt.FrontEndDxbc
import Dxmt.FrontEndDxil
import Dxmt.FirstFree
import Dxmt.ArgumentTable
import Dxmt.DxilArguments
import Dxmt.DxilSlots
import Dxmt.DxbcArguments
import Dxmt.DxbcBlob
import Dxmt.Subresources
import Dxmt.RootLimits
import Dxmt.Overwrite
import Dxmt.UpdateBatch
import Dxmt.ClosedLists
import Dxmt.WhileLoop
import Dxmt.CallGraph
import Dxmt.BumpAllocator
import Dxmt.ArgumentBuffer
import Dxmt.PipelineStream
import Dxmt.RuntimeValidation
import Dxmt.MetallibRoundTrip
import Dxmt.TrackingWindow
import Dxmt.SubresourceOverlap
import Dxmt.PackedVariantList
import Dxmt.CopyRegionExact
import Dxmt.BitcodeRoundTrip
import Dxmt.ControlFlowRuns
import Dxmt.QueueDeadlock
import Dxmt.ComObject
import Dxmt.UploadHeap
import Dxmt.DescriptorHeap
