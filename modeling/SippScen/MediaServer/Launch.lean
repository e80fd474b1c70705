import SippScen.SharedList.Model

/-!
# Starting an endpoint

`launch_background` forks, and the child executes `media_endpoint` with the
arguments below.  The parent only sees the child's pid or a failed fork.
-/

namespace SippScen.MediaServer

open SippScen.Support SippScen.SharedList

/-- The global strings of `media_server` that are handed to every endpoint. -/
structure ServerConfig where
  wavefile : CString
  codec : CString
  sharedMemName : CString
deriving DecidableEq, Repr

/-- `CLIENT`, as the Makefile defines it. -/
def clientProgram : CString := "media_endpoint".toList

/-- The `argv` that `launch_background` builds. -/
def launchArgv (config : ServerConfig) (data : Data) : List CString :=
  [ clientProgram,
    "--local-port".toList, toDecimal data.port,
    "--remote-addr".toList, ofArray data.destAddress,
    "--remote-port".toList, toDecimal data.destPort,
    "--duration".toList, toDecimal data.duration,
    "--wavefile".toList, config.wavefile,
    "--codec".toList, config.codec,
    "--shared-mem".toList, config.sharedMemName,
    if data.client ≠ 0 then [] else "--server".toList ]

end SippScen.MediaServer
