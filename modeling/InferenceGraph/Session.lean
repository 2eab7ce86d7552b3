import InferenceGraph.Detection.Head
import InferenceGraph.FileTree.Usual
import InferenceGraph.Host.Network
import InferenceGraph.Program.Dump
import InferenceGraph.Sample.Dispatch

/-!
# Sessions

A session works on one registry, one topology, at most one program and at most one network at a
time. A step that fails leaves in place what it would have replaced; what a step had done before it
failed stays done.
-/

set_option autoImplicit false

namespace InferenceGraph

structure Session (ε : Type) [Extension ε] where
  registry : Registry ε
  topology : Topology ε
  program? : Option (Program ε)
  network? : Option (HostNetwork ε)
  files : FileTree

inductive Refusal where
  | noProgram
  | noNetwork
  | failure (cause : Failure)
  deriving DecidableEq

abbrev Reply (α : Type) := Except Refusal α

def Reply.ofOutcome {α : Type} : Outcome α → Reply α
  | .ok a => .ok a
  | .error e => .error (.failure e)

namespace Session

variable {ε : Type} [Extension ε]

/-- The standard registry, an empty topology, and nothing compiled. -/
def initial : Session ε := ⟨.standard, .empty, none, none, .usual⟩

def program (s : Session ε) : Reply (Program ε) :=
  match s.program? with
  | some p => .ok p
  | none => .error .noProgram

def network (s : Session ε) : Reply (HostNetwork ε) :=
  match s.network? with
  | some n => .ok n
  | none => .error .noNetwork

def replace {α β : Type} (s : Session ε) (result : Outcome α) (put : α → Session ε)
    (answer : α → β) : Reply β × Session ε :=
  match result with
  | .ok a => (.ok (answer a), put a)
  | .error e => (.error (.failure e), s)

def withTopology (s : Session ε) (t : Topology ε) : Session ε := { s with topology := t }

def addAll (s : Session ε) (ps : List (Primitive ε)) : Reply (Topology ε) × Session ε :=
  let (t, result) := s.topology.addAll ps
  match result with
  | .ok () => (.ok t, s.withTopology t)
  | .error e => (.error (.failure (.error e)), s.withTopology t)

def remove (s : Session ε) (id : PrimitiveId) : Option (Primitive ε) × Session ε :=
  let (removed, t) := s.topology.remove id
  (removed, s.withTopology t)

def updateNetwork (s : Session ε) (step : HostNetwork ε → Outcome (HostNetwork ε)) :
    Reply (HostNetwork ε) × Session ε :=
  match s.network with
  | .error e => (.error e, s)
  | .ok n => s.replace (step n) (fun n => { s with network? := some n }) id

def runPrepared (s : Session ε) :
    Reply (List (PrimitiveId × List Float32) × Network ε) × Session ε :=
  match s.network with
  | .error e => (.error e, s)
  | .ok n =>
    let (result, n) := n.run
    (Reply.ofOutcome (result.map (·, n.network)), { s with network? := some n })

def runHost (s : Session ε) :
    Reply (List (NetworkOutput HostEvent) × Network ε) × Session ε :=
  match s.network with
  | .error e => (.error e, s)
  | .ok n =>
    let (result, network, dispatcher) := n.dispatcher.run n.network
    (Reply.ofOutcome (result.map (·, network)), { s with network? := some ⟨network, dispatcher⟩ })

/-- Runs the network with a counting dispatcher and gives its log, also of a run that failed. -/
def runCounting (s : Session ε) (start : Nat) (refused : Option Nat) :
    Reply (Outcome (List (NetworkOutput Nat)) × List Sample.LogEntry × Network ε) × Session ε :=
  match s.network with
  | .error e => (.error e, s)
  | .ok n =>
    let (result, network, count) := n.network.run (Sample.counting refused) ⟨start, []⟩
    (.ok (result, count.log, network), { s with network? := some { n with network := network } })

def outputSource (n : HostNetwork ε) (id : PrimitiveId) : Outcome Source :=
  (n.network.memoryOf id).map Source.shared

def setDispatcher (s : Session ε) (d : HostDispatcher ε) :
    Reply (HostNetwork ε) × Session ε :=
  s.updateNetwork fun n => .ok { n with dispatcher := d }

def setKernel (s : Session ε) (k : Kind ε) (kernel : Kernel ε) :
    Reply (HostNetwork ε) × Session ε :=
  s.updateNetwork fun n => .ok { n with dispatcher := n.dispatcher.register k kernel }

variable [DecidableEq ε]

def register (s : Session ε) (k : Kind ε) : Reply TypeTag × Session ε :=
  s.replace (s.registry.register k) (fun (_, r) => { s with registry := r }) Prod.fst

def addDescriptor (s : Session ε) (d : Option (Descriptor ε)) : Reply (Topology ε) × Session ε :=
  s.replace (s.topology.addDescriptor s.registry d) s.withTopology id

/-- The stages of a compilation that is not kept. -/
def compilation (s : Session ε) (options : CompileOptions) : Compilation ε :=
  Compilation.ofTopology s.registry s.topology options

/-- Compiles the topology, and saves the stages if a directory is given. Files that were written
stay, whatever comes of the compilation. -/
def compiled (s : Session ε) (options : CompileOptions) (directory : Option Path) :
    Outcome (Program ε) × Session ε :=
  match directory with
  | none => ((s.compilation options).result, s)
  | some directory =>
    let (result, files) := (s.compilation options).saved directory s.files
    (result, { s with files := files })

theorem compiled_none (s : Session ε) (options : CompileOptions) :
    s.compiled options none = (Program.ofTopology s.registry s.topology options, s) := by
  simp [compiled, compilation, Compilation.result_ofTopology]

def build (s : Session ε) (options : CompileOptions) (directory : Option Path) :
    Reply (Program ε) × Session ε :=
  let (result, s) := s.compiled options directory
  s.replace result (fun p => { s with program? := some p }) id

/-- Prepares the topology for the host, or the program if it is wanted and there is one. -/
def prepare (s : Session ε) (options : CompileOptions) (directory : Option Path)
    (useProgram : Bool) : Reply (HostNetwork ε) × Session ε :=
  let (program, s) : Outcome (Program ε) × Session ε :=
    match useProgram, s.program? with
    | true, some p => (.ok p, s)
    | _, _ => s.compiled options directory
  s.replace (program.bind HostNetwork.ofProgram) (fun n => { s with network? := some n }) id

/-- Compiles the topology for an allocator, beside a new host dispatcher. -/
def compile (s : Session ε) (options : CompileOptions) (directory : Option Path)
    (allocator : Allocator) : Reply (HostNetwork ε) × Session ε :=
  let (program, s) := s.compiled options directory
  s.replace (program.bind fun p => Network.ofProgram p allocator)
    (fun n => { s with network? := some ⟨n, .standard⟩ }) fun n => ⟨n, .standard⟩

def setInput (s : Session ε) (id : PrimitiveId) (values : List Float32) :
    Reply (HostNetwork ε) × Session ε :=
  s.updateNetwork fun n => n.bindValues id values

/-- Binds a buffer to an input. Making the buffer may fail first. -/
def setMemory (s : Session ε) (id : PrimitiveId) (source : HostNetwork ε → Outcome Source) :
    Reply (HostNetwork ε) × Session ε :=
  s.updateNetwork fun n => do
    let network ← n.network.bindInput id (← source n)
    return { n with network := network }

end Session

end InferenceGraph
