import ModuleResolution.Text.Basic

/-!
# Core modules

The modules that come with the runtime.  Most can be named with or without the `node:` scheme, a
few only with it.
-/

namespace ModuleResolution

namespace Core

/-- Core modules that need no scheme. -/
def names : List Text :=
  [
    "_http_agent", "_http_client", "_http_common", "_http_incoming", "_http_outgoing",
    "_http_server", "_stream_duplex", "_stream_passthrough", "_stream_readable",
    "_stream_transform", "_stream_wrap", "_stream_writable", "_tls_common", "_tls_wrap", "assert",
    "assert/strict", "async_hooks", "buffer", "child_process", "cluster", "console", "constants",
    "crypto", "dgram", "diagnostics_channel", "dns", "dns/promises", "domain", "events", "fs",
    "fs/promises", "http", "http2", "https", "inspector", "inspector/promises", "module", "net",
    "os", "path", "path/posix", "path/win32", "perf_hooks", "process", "punycode", "querystring",
    "readline", "readline/promises", "repl", "stream", "stream/consumers", "stream/promises",
    "stream/web", "string_decoder", "sys", "timers", "timers/promises", "tls", "trace_events",
    "tty", "url", "util", "util/types", "v8", "vm", "wasi", "worker_threads", "zlib"
  ].map String.toList

/-- Core modules that need the scheme. -/
def schemeOnlyNames : List Text :=
  ["sea", "sqlite", "test", "test/reporters"].map String.toList

/-- The scheme of core modules, with its colon. -/
def scheme : Text := "node:".toList

/-- Does the specifier name a core module? -/
def isBuiltin (specifier : Text) : Bool :=
  if scheme.isPrefixOf specifier then
    let name := specifier.drop scheme.length
    names.contains name || schemeOnlyNames.contains name
  else names.contains specifier

end Core

end ModuleResolution
