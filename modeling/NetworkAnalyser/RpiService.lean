import NetworkAnalyser.JavaExec
import NetworkAnalyser.JavaTimer
import NetworkAnalyser.NetworkCaptureData
import NetworkAnalyser.Printf

/-! `RpiServiceImpl`: the exchange with the capture server, and the configuration. -/
namespace NetworkAnalyser.Client
open NetworkAnalyser.JavaExec NetworkAnalyser.CString NetworkAnalyser.Json

/-- What the calls below throw. The parse errors of the mapper are `IOException`s, as is
`JsonGenerationException`; `restClient` stands for what `RestTemplate` throws. -/
inductive JavaException where
  | io
  | jsonGeneration
  | interrupted
  | nullPointer
  | restClient
  | refused (r : JavaTimer.Refusal)
  deriving DecidableEq

def JavaException.isRuntime : JavaException → Bool
  | .io => false
  | .jsonGeneration => false
  | .interrupted => false
  | .nullPointer => true
  | .restClient => true
  | .refused _ => true

def rpiId : JString := javaString "4062a43b-7e77-42c7-a694-f35a264a18db"
abbrev maxNetworkInputBufferSize : Nat := 8192
def clientCaptureCommand : Bytes := Printf.ascii "capture"

def NetworkCaptureData.setDevId (data : NetworkCaptureData) (devId : JString) :
    NetworkCaptureData :=
  { data with devId := some devId }

/- The fields of the service, each naming a connection, the connections opened and closed so
far, what was written to the last one, and the local `data`. -/
structure Exchange where
  socket : Option Nat
  out : Option Nat
  inp : Option Nat
  opened : Nat
  closed : List Nat
  sent : Bytes
  data : Option NetworkCaptureData

/-- How the calls that can fail turn out; what can be read comes in chunks, one a call, and then
the end of the stream. -/
structure Calls where
  connect : Option JavaException
  getOutputStream : Option JavaException
  write : Option JavaException
  getInputStream : Option JavaException
  read : Except JavaException (List Bytes)
  closeIn : Option JavaException
  closeOut : Option JavaException
  sleep : Option JavaException

def Calls.delivering (chunks : List Bytes) : Calls :=
  ⟨none, none, none, none, .ok chunks, none, none, none⟩

abbrev J := Java JavaException Exchange

/-- `InputStream.read(byte[])`: the count and the array afterwards. -/
def readInto (buff : Bytes) : List Bytes → Int × Bytes
  | [] => (-1, buff)
  | c :: _ => ((min c.length buff.length : Nat), c.take buff.length ++ buff.drop c.length)

def openSocket (c : Calls) : J Unit := do
  Java.call c.connect
  Java.modify fun s => { s with socket := some s.opened, opened := s.opened + 1 }

/-- Closing either stream of a socket closes the socket. -/
def closeStream (stream : Option Nat) (thrown : Option JavaException) : J Unit :=
  match stream with
  | none => Java.throw .nullPointer
  | some k => do
    Java.call thrown
    Java.modify fun s => { s with closed := k :: s.closed }

abbrev Mapper := Bytes → Except JavaException NetworkCaptureData

def deserialize (mapper : Mapper) (readCount : Int) (captureDataBytes : Bytes) : J Unit :=
  if readCount > 0 then
    Java.tryCatch
      (do
        let data ← Java.ofExcept (mapper captureDataBytes)
        Java.modify fun s => { s with data := some data })
      fun e => if e = .jsonGeneration then pure () else Java.throw e
  else
    pure ()

def exchange (mapper : Mapper) (c : Calls) : J Unit := do
  openSocket c
  Java.call c.getOutputStream
  Java.modify fun s => { s with out := s.socket }
  Java.call c.write
  Java.modify fun s => { s with sent := clientCaptureCommand }
  Java.call c.getInputStream
  Java.modify fun s => { s with inp := s.socket }
  let chunks ← Java.ofExcept c.read
  let read := readInto (List.replicate maxNetworkInputBufferSize 0) chunks
  deserialize mapper read.1 read.2
  let s ← Java.get
  closeStream s.inp c.closeIn
  closeStream s.out c.closeOut
  Java.call c.sleep

def getNetworkInfoFromClient (mapper : Mapper) (c : Calls) : J NetworkCaptureData := do
  Java.modify fun s => { s with data := none }
  Java.tryCatch (exchange mapper c) fun e =>
    if e = .io ∨ e = .jsonGeneration ∨ e = .interrupted then pure () else Java.throw e
  let s ← Java.get
  match s.data with
  | none => Java.throw .nullPointer
  | some data => return data.setDevId rpiId

structure RpiConfig where
  captureTaskStartDelay : Int64
  captureTaskRepeatInterval : Int64
  numberOfPacketsToCapture : Int64
  deriving DecidableEq

/- One object is equal to itself by its members too. -/
def RpiConfig.equals (config : RpiConfig) : Option RpiConfig → Bool
  | none => false
  | some other =>
    if config.captureTaskRepeatInterval ≠ other.captureTaskRepeatInterval then false
    else if config.captureTaskStartDelay ≠ other.captureTaskStartDelay then false
    else if config.numberOfPacketsToCapture ≠ other.numberOfPacketsToCapture then false
    else true

theorem RpiConfig.equals_iff (config other : RpiConfig) :
    config.equals (some other) = true ↔ config = other := by
  obtain ⟨d, i, n⟩ := config
  obtain ⟨d', i', n'⟩ := other
  simp only [RpiConfig.equals, RpiConfig.mk.injEq]
  grind

def getRpiConfigFromServer {σ : Type} (response : Except JavaException (Option RpiConfig)) :
    Java JavaException σ (Option RpiConfig) :=
  Java.ofExcept response

end NetworkAnalyser.Client
