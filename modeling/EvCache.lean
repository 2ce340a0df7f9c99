import EvCache.Lib.Loop
import EvCache.Lib.CArray
import EvCache.Lib.KStr
import EvCache.Config
import EvCache.Evset.Test
import EvCache.Evset.Prune
import EvCache.Evset.Zhao
import EvCache.Evset.ZhaoSafety
import EvCache.Evset.ZhaoIdeal
import EvCache.Evset.L2
import EvCache.Evset.L2Ideal
import EvCache.Evset.BuildAt
import EvCache.Evset.Vote
import EvCache.Para.Gran
import EvCache.Vtop.Detect
import EvCache.Vset.Wait
import EvCache.Vcolor.Proc
import EvCache.Vcolor.Hot
import EvCache.Rusty.PickDomain
import EvCache.Evset.Shift
import EvCache.Para.Pairs
import EvCache.Evset.Filter
import EvCache.Evset.Complex
import EvCache.Lats.Thresh
import EvCache.Vtop.Closure
import EvCache.Helper.Handshake
import EvCache.Vset.Lcas
import EvCache.Lib.Interleave
import EvCache.Para.GranRun
import EvCache.Lib.FreqTable
import EvCache.Lats.Stats
import EvCache.Lib.WorkQueue
import EvCache.Para.Dynamic
import EvCache.Para.Built
import EvCache.Evset.SingleL3
