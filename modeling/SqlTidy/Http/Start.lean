import SqlTidy.Log
import SqlTidy.Net.Listen

/-! Starting the service on an address. -/
namespace SqlTidy.Http

structure Started where
  failure : Option Net.ListenFault := none
  logs : List Log.Entry

def startingEntry (address : Bytes) : Log.Entry where
  level := .info
  message := "Starting web server"
  fields := [("address", .text address)]

def stoppingEntry : Log.Entry where
  level := .info
  message := "Shutting down web server"

def failedEntry (fault : Net.ListenFault) : Log.Entry where
  level := .error
  message := "Web server failed to start"
  fields := [("error", .text fault.message)]

/-- Starts on an address. If the stop was asked for beforehand, the start ends at once and
without failure. -/
def start (address : Bytes) (stopAsked : Bool) : Started :=
  if stopAsked then { logs := [startingEntry address, stoppingEntry] }
  else
    match Net.listen address with
    | .ok _ => { logs := [startingEntry address] }
    | .error fault => { failure := some fault, logs := [startingEntry address, failedEntry fault] }

end SqlTidy.Http
