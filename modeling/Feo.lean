import Feo.Tracing.Cobs
import Feo.Tracing.Protocol
import Feo.Tracing.BufWriter
import Feo.Tracing.Subscriber
import Feo.Tracing.Steps
import Feo.Tracing.Stream
import Feo.Tracing.Failure
import Feo.Tracing.Latency
import Feo.Tracing.SpanIds
import Feo.Tracing.Causality
import Feo.Tracing.Backpressure
import Feo.Tracing.Collector
import Feo.Tracing.Latch
import Feo.Tracing.Progress
import Feo.MiniAdas.Postcard
import Feo.MiniAdas.Deserializer
import Feo.DebugFmt.Utf8
import Feo.DebugFmt.Fmt
