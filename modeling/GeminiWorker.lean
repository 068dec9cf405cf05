import GeminiWorker.Proof.Upstream
import GeminiWorker.Spec.OpenaiImage
import GeminiWorker.Spec.Provider
import GeminiWorker.Spec.Grsai
import GeminiWorker.Proof.ReferenceImages
import GeminiWorker.Lib.Base64
import GeminiWorker.Lib.JsonPointer
import GeminiWorker.Lib.Reader
import GeminiWorker.Proof.BlobRuntime
import GeminiWorker.Proof.RequestEncode
import GeminiWorker.Proof.RequestImages
import GeminiWorker.Proof.RequestPipeline
import GeminiWorker.Proof.ForwardBlobs
import GeminiWorker.Proof.BlockReplay
import GeminiWorker.Lib.RetryLoop
import GeminiWorker.Spec.PollAutomaton
import GeminiWorker.Proof.PollAutomaton
import GeminiWorker.Lib.Hex
import GeminiWorker.Lib.JsonOrder
import GeminiWorker.Proof.BlockHistory
import GeminiWorker.Proof.BlockKey
import GeminiWorker.Lib.Transition
import GeminiWorker.Lib.Disk
import GeminiWorker.Spec.BlobSteps
import GeminiWorker.Proof.BlobSteps
import GeminiWorker.Proof.BlobHot
import GeminiWorker.Proof.BlobRequest
import GeminiWorker.Proof.BlobSpill
import GeminiWorker.Proof.BlobStore
import GeminiWorker.Lib.Base64Decode
import GeminiWorker.Spec.UploadBase64
import GeminiWorker.Proof.UploadBase64
import GeminiWorker.Lib.FormUrlencoded
import GeminiWorker.Lib.UrlPath
import GeminiWorker.Spec.HttpUrl
import GeminiWorker.Spec.R2Upload
import GeminiWorker.Proof.R2Path
import GeminiWorker.Proof.R2Signature
import GeminiWorker.Spec.OutputMode
import GeminiWorker.Spec.AiapidevRewrite
import GeminiWorker.Proof.OutputDirective
import GeminiWorker.Proof.AiapidevRewrite
import GeminiWorker.Proof.FetchService
import GeminiWorker.Proof.FetchWait
import GeminiWorker.Proof.FetchAbort
import GeminiWorker.Proof.FetchInflight
import GeminiWorker.Proof.MemoryCache
import GeminiWorker.Proof.FetchReuse
import GeminiWorker.Proof.DiskPair
import GeminiWorker.Proof.SharedImage
import GeminiWorker.Proof.MemoryHistory
import GeminiWorker.Lib.JsonShape
import GeminiWorker.Spec.ResponseMaterialize
import GeminiWorker.Proof.ResponsePatch
import GeminiWorker.Proof.ResponseMaterialize
import GeminiWorker.Lib.TextSearch
import GeminiWorker.Spec.MarkdownRewrite
import GeminiWorker.Proof.MarkdownRewrite
import GeminiWorker.Lib.IpAddr
import GeminiWorker.Spec.FetchTarget
import GeminiWorker.Proof.FetchTarget
import GeminiWorker.Lib.FirstMax
import GeminiWorker.Spec.LargestImage
import GeminiWorker.Proof.LargestImage
import GeminiWorker.Proof.ImageNormalization
import GeminiWorker.Spec.GrsaiResponse
import GeminiWorker.Proof.GrsaiResponse
import GeminiWorker.Lib.UrlFolder
import GeminiWorker.Proof.ForwardedPath
import GeminiWorker.Lib.Evict
import GeminiWorker.Proof.DiskPrune
import GeminiWorker.Proof.DiskHolder
import GeminiWorker.Proof.DiskLifetime
import GeminiWorker.Proof.ServicesStep
import GeminiWorker.Proof.DamagedEntry
import GeminiWorker.Lib.JsonOutline
import GeminiWorker.Proof.AiapidevPreserved
import GeminiWorker.Proof.PollPatience
import GeminiWorker.Lib.BoundedLog
import GeminiWorker.Spec.AdminLogs
import GeminiWorker.Proof.AdminLogs
import GeminiWorker.Lib.JsonNodes
import GeminiWorker.Spec.AdminRedaction
import GeminiWorker.Proof.AdminWalk
import GeminiWorker.Proof.AdminRedaction
import GeminiWorker.Lib.Buffer
import GeminiWorker.Spec.CarryLoop
import GeminiWorker.Proof.CarryLoop
import GeminiWorker.Lib.Dialogue
import GeminiWorker.Spec.Uploader
import GeminiWorker.Proof.Uploader
import GeminiWorker.Spec.FetchTasks
import GeminiWorker.Proof.FetchTasks
import GeminiWorker.Lib.JsonLayout
import GeminiWorker.Lib.Counters
import GeminiWorker.Spec.AdminState
import GeminiWorker.Proof.AdminStats
import GeminiWorker.Proof.AdminAuth
import GeminiWorker.Proof.AdminEntry
import GeminiWorker.Spec.OpenaiResponse
import GeminiWorker.Proof.OpenaiResponse
import GeminiWorker.Lib.JsonRemove
import GeminiWorker.Proof.AiapidevResponse
import GeminiWorker.Proof.GrsaiForward
import GeminiWorker.Proof.ImageEdit
import GeminiWorker.Lib.Decimal
import GeminiWorker.Lib.History
import GeminiWorker.Lib.Setting
import GeminiWorker.Proof.Config
import GeminiWorker.Proof.ImageOrigin
