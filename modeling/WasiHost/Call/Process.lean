import WasiHost.Session.Action

/-!
# Exit codes and random octets
-/

namespace WasiHost

namespace Action

/-- Records an exit code. The guest goes on running. -/
def procExit (code : UInt32) : Action Unit := do
  emit [.stderr ("exit " ++ toString code)]
  change fun session => { session with exitCode := some code }
  emit
    [.log
      { level := .info
        source := .calls
        text := "proc_exit called with exit code " ++ toString code }]

/-- Fills a range with random octets. -/
def randomGet (host : Host) (address length : UInt32) : Action Unit :=
  access (Access.overwrite address length host.random)

end Action

end WasiHost
