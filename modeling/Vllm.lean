import Vllm.Hashing.Isolation
import Vllm.KVCache.Guarantees
import Vllm.KVCache.WindowHit
import Vllm.Worker.BatchRuns
import Vllm.Frontend.DeltasAddUp
import Vllm.Multimodal.Mirrored
import Vllm.Multimodal.PinnedCache
import Vllm.Sched.DraftLengths
import Vllm.Sched.LoraRuns
import Vllm.KVCache.CommonPrefix
import Vllm.Sample.RejectionSampler
import Vllm.KVCache.AutoFit
import Vllm.Eplb.Replication
import Vllm.Reasoning.Thinking
import Vllm.Worker.UbatchUtils
import Vllm.Worker.SlotMapping
import Vllm.SpecDecode.NgramProposer
