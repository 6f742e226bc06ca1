import TlsClient.Library.Run
import TlsClient.Library.HandleTable
import TlsClient.Library.Tagged
import TlsClient.Library.Utf8
import TlsClient.Library.SortedMap
import TlsClient.Library.LossyCopy
import TlsClient.Library.OnceRegister
import TlsClient.Library.DeferRecover
import TlsClient.Ffi.Values
import TlsClient.Ffi.CStruct
import TlsClient.WebSocket.Handles
import TlsClient.Async.Registry
import TlsClient.Async.Owners
import TlsClient.Response.Body
import TlsClient.Python.Values
import TlsClient.Python.Options
import TlsClient.Python.Marshal
import TlsClient.Engine.Config
import TlsClient.CacheKey.Engine
import TlsClient.CacheKey.Python
import TlsClient.CacheKey.Parity
import TlsClient.CacheKey.Injective
import TlsClient.Engine.CookieJar
import TlsClient.Engine.Builder
import TlsClient.Engine.Pool
import TlsClient.Engine.Clients
import TlsClient.Engine.PoolSound
import TlsClient.Engine.PoolThreads
import TlsClient.Engine.PoolAccounting
import TlsClient.Engine.PoolHistory
import TlsClient.Engine.Delivery
import TlsClient.Engine.Pinning
import TlsClient.Engine.Proxy
import TlsClient.Engine.Racer
import TlsClient.Engine.RoundTrip
import TlsClient.Engine.RoundTripSteps
import TlsClient.Engine.Egress
import TlsClient.Engine.PinCoverage
import TlsClient.Engine.SchemeCache
import TlsClient.Engine.KindCoherence
import TlsClient.Engine.AlpnRecovery
import TlsClient.Engine.Borrow
import TlsClient.Engine.BadPin
import TlsClient.Engine.TcpFingerprint
import TlsClient.Python.Dict
import TlsClient.Python.Headers
import TlsClient.Python.HeaderTemplate
import TlsClient.Engine.HeaderOrder
import TlsClient.Engine.DebugLog
import TlsClient.Compat.Cookies
import TlsClient.Python.Snapshot
import TlsClient.Python.NextRequest
import TlsClient.Python.PresetCoverage
import TlsClient.Engine.CookieHistory
import TlsClient.Async.DefensiveTimeout
import TlsClient.Compat.ProxyChoice
import TlsClient.Compat.Timeouts
import TlsClient.Compat.CookieRules
import TlsClient.Compat.RedirectCredentials
import TlsClient.Compat.CookieDeletion
import TlsClient.Sessions.Closing
import TlsClient.Library.WireBytes
import TlsClient.Engine.EchRecord
import TlsClient.Library.IpBytes
import TlsClient.Engine.Socks5Datagram
import TlsClient.Library.HostPort
import TlsClient.Library.Dialogue
import TlsClient.Engine.Socks5Negotiation
import TlsClient.Engine.IpFamily
import TlsClient.Engine.ProxyAddress
import TlsClient.Library.DomainName
import TlsClient.Engine.CookieIsolation
import TlsClient.Engine.CookieCrumb
import TlsClient.Library.BufferedReader
import TlsClient.Engine.ConnectTunnel
import TlsClient.Engine.Http2Proxy
import TlsClient.Library.Hex
import TlsClient.Library.Shuffle
import TlsClient.Engine.EchCache
import TlsClient.Engine.TrustAnchors
import TlsClient.Library.Slices
import TlsClient.Engine.ExtensionPermute
import TlsClient.Library.Numerals
import TlsClient.Engine.Ja3
import TlsClient.Engine.Ja3Reading
import TlsClient.Library.SplitText
import TlsClient.Python.HeaderMerge
import TlsClient.Python.FetchSite
import TlsClient.Python.ContextHeaders
import TlsClient.Python.Inheritance
import TlsClient.Python.PresetObjects
import TlsClient.Library.CharReader
import TlsClient.Library.Utf8Reader
import TlsClient.Library.Chunks
import TlsClient.Compat.ResponseText
import TlsClient.Library.FormUrlencoded
import TlsClient.Library.UrlSplit
import TlsClient.Python.UrlParams
import TlsClient.Compat.UrlParams
import TlsClient.Library.StringArena
import TlsClient.Response.Arena
import TlsClient.Python.PreparedRequest
import TlsClient.Library.Separator
import TlsClient.Library.FormData
import TlsClient.Library.Bits
import TlsClient.Library.PrefixCode
import TlsClient.Compat.Multipart
import TlsClient.Library.QueueIndex
import TlsClient.Http2.HuffmanCode
import TlsClient.Http2.HuffmanDecode
import TlsClient.Http2.HeaderTable
import TlsClient.Library.Incremental
import TlsClient.Http2.HpackWire
import TlsClient.Http2.HpackDecode
import TlsClient.Http2.HpackEncode
import TlsClient.Http2.HpackSync
import TlsClient.Http2.Frame
import TlsClient.Http2.Framer
import TlsClient.Http2.MetaHeaders
import TlsClient.Http2.Opening
import TlsClient.Http2.HeaderBlocks
import TlsClient.Http2.DataBuffer
