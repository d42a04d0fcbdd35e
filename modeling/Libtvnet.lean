import Libtvnet.Foundation.BigEndian
import Libtvnet.Foundation.Ieee754
import Libtvnet.Foundation.CInteger
import Libtvnet.Buffer
import Libtvnet.Token
import Libtvnet.PickleLength
import Libtvnet.PickleEncoder
import Libtvnet.PickleDecoder
import Libtvnet.TokenCodec
import Libtvnet.DecodeBounds
import Libtvnet.Terminator
import Libtvnet.PythonObject
import Libtvnet.PythonEncode
import Libtvnet.PythonDecode
import Libtvnet.PythonGrammar
import Libtvnet.PythonRun
import Libtvnet.EndOfData
import Libtvnet.PythonRoundTrip
import Libtvnet.Foundation.Issuer
import Libtvnet.Cuid
import Libtvnet.CuidUnique
import Libtvnet.Common
import Libtvnet.NodeLabel
import Libtvnet.Stdarg
import Libtvnet.StdargDecode
import Libtvnet.FmtParser
import Libtvnet.PicklePrint
import Libtvnet.PrintRoundTrip
import Libtvnet.PrintfGrammar
import Libtvnet.FormatSound
import Libtvnet.FormatComplete
import Libtvnet.Indeterminate
import Libtvnet.InitFailure
import Libtvnet.Foundation.History
import Libtvnet.CuidOrder
import Libtvnet.CuidClock
import Libtvnet.TypesArray
import Libtvnet.FloatFidelity
import Libtvnet.PrintStrings
import Libtvnet.Foundation.DecimalField
import Libtvnet.Service
import Libtvnet.ServicePaths
import Libtvnet.ServiceTipc
import Libtvnet.Log
import Libtvnet.LogPipeline
import Libtvnet.Foundation.ByteStore
import Libtvnet.SharedMemory
import Libtvnet.Logfile
import Libtvnet.LogfileCache
import Libtvnet.Loop
import Libtvnet.LoopSafe
import Libtvnet.ShortestToken
import Libtvnet.CanonicalEncoding
import Libtvnet.Foundation.AssociationList
import Libtvnet.PythonDecoded
import Libtvnet.PythonSizes
import Libtvnet.PythonKeys
import Libtvnet.EncodedDecodes
import Libtvnet.LoglineBound
import Libtvnet.SizeTruncation
import Libtvnet.CuidProgress
import Libtvnet.Foundation.Registry
import Libtvnet.ServiceSockets
import Libtvnet.ServiceMailboxes
import Libtvnet.ServiceDelivery
import Libtvnet.ServiceSender
import Libtvnet.ServiceAvailable
import Libtvnet.PythonCalls
import Libtvnet.Foundation.SlotQueue
import Libtvnet.LogSystem
import Libtvnet.LogDelivery
import Libtvnet.PrintFunctions
import Libtvnet.LogLoop
import Libtvnet.Interchange
import Libtvnet.CutMessages
import Libtvnet.ServiceArguments
import Libtvnet.TvlogdMain
import Libtvnet.LogProgress
import Libtvnet.LogService
import Libtvnet.ServiceReplies
