import LinquUb.Guest.Pool
import LinquUb.Guest.RpcMessage
import LinquUb.Wire.Reader

/-!
# The two nodes of the OBMM demo

`ub_obmm_demo.c`: the exporter offers a region and repeats its metadata until the importer has mapped
the region.  It writes payload A, which the importer verifies; the importer writes payload B, which the
exporter verifies; the importer lets go of the region, and then the exporter does.

* `ObmmDemoMeta.bytes`, `ObmmDemoMeta.ofBytes` : the metadata as a datagram;
* `ExporterPc`, `ImporterPc` : where the nodes are;
* `HandOver.runExporter`, `HandOver.runImporter` : the next step of a node;
* `HandOver.act` : a step of a node, a timeout, a call that fails, or a step of the network.
-/

namespace LinquUb

/-! ### Messages -/

namespace ObmmDemoMeta

/-- The structure in memory. -/
def bytes (m : ObmmDemoMeta) : List UInt8 :=
  Wire.leBytes 8 m.exportMemId.toNat ++ Wire.leBytes 8 m.remoteUba.toNat ++
    Wire.leBytes 8 m.size.toNat ++ Wire.leBytes 4 m.tokenId.toNat ++
    Wire.leBytes 4 m.exportCna.toNat

def ofBytes (buf : List UInt8) : ObmmDemoMeta :=
  { exportMemId := .ofNat (Wire.ofLeBytes (buf.take 8))
    remoteUba := .ofNat (Wire.ofLeBytes ((buf.drop 8).take 8))
    size := .ofNat (Wire.ofLeBytes ((buf.drop 16).take 8))
    tokenId := .ofNat (Wire.ofLeBytes ((buf.drop 24).take 4))
    exportCna := .ofNat (Wire.ofLeBytes ((buf.drop 28).take 4)) }

/-- `sizeof(struct obmm_demo_meta)`. -/
def sizeBytes : ℕ := 32

end ObmmDemoMeta

/-- What the driver returns for `OBMM_CMD_EXPORT`. -/
structure ObmmCmdExport where
  memId : UInt64
  uba : UInt64
  tokenId : UInt32

def exportRegionSize : UInt64 := 2 * 1024 * 1024

def demoSize : ℕ := 256 * 1024

/-- The metadata of the exporter behind `do_export_region`. -/
def doExportRegion (cmd : ObmmCmdExport) (localCna : UInt32) : ObmmDemoMeta :=
  { exportMemId := cmd.memId
    remoteUba := cmd.uba
    size := exportRegionSize
    tokenId := cmd.tokenId
    exportCna := localCna }

/-- A message is read into `ack[64]` and compared with a text. -/
def isText (m : List UInt8) (text : String) : Bool :=
  m ≠ [] ∧ cString (m.take 63) = ascii text

/-! ### The region -/

/-- A payload with the zero behind it. -/
def demoPayload (text : String) : List UInt8 := ascii text ++ [0]

def demoPayloadA : List UInt8 := demoPayload "obmm-export-payload-from-exporter"

def demoPayloadB : List UInt8 := demoPayload "obmm-import-payload-from-importer"

/-- What `stamp_payload` writes, if it fits. -/
def stampPayload (region : ℕ → UInt8) (payload : List UInt8) : Option (ℕ → UInt8) :=
  if payload.length > demoSize then none else some fun k => payload[k]?.getD (region k)

def regionMatchesPayload (region : ℕ → UInt8) (payload : List UInt8) : Bool :=
  (List.range payload.length).all fun k => payload[k]? = some (region k)

/-! ### Nodes -/

inductive ObmmRole
  | exporter
  | importer
deriving DecidableEq, Repr

/-- Where `run_exporter` is. -/
inductive ExporterPc
  | exportRegion
  | mapRegion
  | sendMeta
  /-- Waiting for IMPORT_READY between two metadata messages. -/
  | recvReady
  | stampA
  | sendWriteADone
  | waitImportOk
  | verifyB
  | sendWritebackOk
  | waitUnimportOk
  | unexport
  /-- A call has failed or a loop has timed out. -/
  | cleanup
  | returned (rc : ℕ)
deriving DecidableEq, Repr

/-- Where `run_importer` is. -/
inductive ImporterPc
  | recvMeta
  | importRegion
  | mapRegion
  | sendImportReady
  | waitWriteADone
  | verifyA
  | stampB
  | sendImportOk
  | waitWritebackOk
  | unimport
  | sendUnimportOk
  /-- A call has failed or a loop has timed out. -/
  | cleanup
  | returned (rc : ℕ)
deriving DecidableEq, Repr

/-- What the nodes have done with the region. -/
inductive HandOverEvent
  | stampA
  | verifyA
  | stampB
  | verifyB
  | unimport
  | unexport
deriving DecidableEq, Repr

structure HandOver where
  exporter : ExporterPc
  importer : ImporterPc
  /-- The metadata that the importer has read. -/
  demoMeta : ObmmDemoMeta
  /-- The memory that both nodes map. -/
  region : ℕ → UInt8
  net : Net ObmmRole (List UInt8)
  log : List HandOverEvent

namespace HandOver

def setExporter (s : HandOver) (pc : ExporterPc) : HandOver := { s with exporter := pc }

def setImporter (s : HandOver) (pc : ImporterPc) : HandOver := { s with importer := pc }

def push (s : HandOver) (e : HandOverEvent) : HandOver := { s with log := s.log ++ [e] }

def write (s : HandOver) (payload : List UInt8) : Option HandOver :=
  (stampPayload s.region payload).map fun region => { s with region := region }

def send (s : HandOver) (src dst : ObmmRole) (m : List UInt8) : HandOver :=
  { s with net := s.net.post ⟨src, dst, m⟩ }

/-- One iteration of a loop of `i` that reads messages until one has `ok`. -/
def recv (s : HandOver) (i : ObmmRole) (ok : List UInt8 → Bool)
    (next : List UInt8 → HandOver → HandOver) (again : HandOver → HandOver) : HandOver :=
  match s.net.socket i with
  | [] => again s
  | (_, m) :: rest =>
    let s := { s with net := s.net.take i rest }
    if ok m then next m s else again s

/-- The next step of `run_exporter`. -/
def runExporter (cmd : ObmmCmdExport) (localCna : UInt32) (s : HandOver) : Option HandOver :=
  match s.exporter with
  | .exportRegion => some (s.setExporter .mapRegion)
  | .mapRegion => some (s.setExporter .sendMeta)
  | .sendMeta =>
    some ((s.setExporter .recvReady).send .exporter .importer (doExportRegion cmd localCna).bytes)
  -- the metadata is sent again until the importer answers
  | .recvReady => some <|
    s.recv .exporter (isText · "IMPORT_READY") (fun _ s => s.setExporter .stampA)
      fun s => s.setExporter .sendMeta
  | .stampA => match s.write demoPayloadA with
    | some s => some ((s.setExporter .sendWriteADone).push .stampA)
    | none => some (s.setExporter .cleanup)
  | .sendWriteADone =>
    some ((s.setExporter .waitImportOk).send .exporter .importer (ascii "WRITE_A_DONE"))
  | .waitImportOk => some <|
    s.recv .exporter (isText · "IMPORT_OK") (fun _ s => s.setExporter .verifyB) id
  -- a payload that does not match yet is looked at again
  | .verifyB =>
    if regionMatchesPayload s.region demoPayloadB then
      some ((s.setExporter .sendWritebackOk).push .verifyB)
    else some s
  | .sendWritebackOk =>
    some ((s.setExporter .waitUnimportOk).send .exporter .importer (ascii "WRITEBACK_OK"))
  | .waitUnimportOk => some <|
    s.recv .exporter (isText · "UNIMPORT_OK") (fun _ s => s.setExporter .unexport) id
  | .unexport => some ((s.setExporter (.returned 0)).push .unexport)
  -- the region is unexported on the failing path as well
  | .cleanup => some ((s.setExporter (.returned 1)).push .unexport)
  | .returned _ => none

/-- The next step of `run_importer`. -/
def runImporter (s : HandOver) : Option HandOver :=
  match s.importer with
  | .recvMeta => some <|
    s.recv .importer (fun m => ObmmDemoMeta.sizeBytes ≤ m.length)
      (fun m s => { s.setImporter .importRegion with demoMeta := .ofBytes m }) id
  | .importRegion => some (s.setImporter .mapRegion)
  | .mapRegion => some (s.setImporter .sendImportReady)
  | .sendImportReady =>
    some ((s.setImporter .waitWriteADone).send .importer .exporter (ascii "IMPORT_READY"))
  | .waitWriteADone => some <|
    s.recv .importer (isText · "WRITE_A_DONE") (fun _ s => s.setImporter .verifyA) id
  | .verifyA =>
    if regionMatchesPayload s.region demoPayloadA then
      some ((s.setImporter .stampB).push .verifyA)
    else some s
  | .stampB => match s.write demoPayloadB with
    | some s => some ((s.setImporter .sendImportOk).push .stampB)
    | none => some (s.setImporter .cleanup)
  | .sendImportOk =>
    some ((s.setImporter .waitWritebackOk).send .importer .exporter (ascii "IMPORT_OK"))
  | .waitWritebackOk => some <|
    s.recv .importer (isText · "WRITEBACK_OK") (fun _ s => s.setImporter .unimport) id
  | .unimport => some ((s.setImporter .sendUnimportOk).push .unimport)
  | .sendUnimportOk =>
    some ((s.setImporter (.returned 0)).send .importer .exporter (ascii "UNIMPORT_OK"))
  | .cleanup => some ((s.setImporter (.returned 1)).push .unimport)
  | .returned _ => none

end HandOver

/-! ### Failures -/

/-- Where the exporter goes when the alarm or a deadline stops a loop, or is found behind it. -/
def ExporterPc.timeout : ExporterPc → Option ExporterPc
  | .sendMeta | .recvReady | .stampA => some .cleanup
  | .waitImportOk | .verifyB => some .cleanup
  | .waitUnimportOk | .unexport => some .cleanup
  | _ => none

/-- Where the exporter goes when the call that it is at fails. -/
def ExporterPc.error : ExporterPc → Option ExporterPc
  | .exportRegion => some (.returned 1)
  | .mapRegion => some .cleanup
  -- a failing send or receive is tried again in the loop
  | .sendMeta | .recvReady => some .sendMeta
  | .stampA | .sendWriteADone | .sendWritebackOk => some .cleanup
  | .unexport | .cleanup => some (.returned 1)
  | _ => none

def ImporterPc.timeout : ImporterPc → Option ImporterPc
  | .recvMeta | .importRegion => some (.returned 1)
  | .waitWriteADone | .verifyA => some .cleanup
  | .waitWritebackOk | .unimport => some .cleanup
  | _ => none

def ImporterPc.error : ImporterPc → Option ImporterPc
  -- nothing is imported yet, so there is nothing to clean up
  | .importRegion => some (.returned 1)
  | .mapRegion | .sendImportReady => some .cleanup
  | .stampB | .sendImportOk => some .cleanup
  | .unimport | .sendUnimportOk | .cleanup => some (.returned 1)
  | _ => none

inductive HandOverAction
  | node (i : ObmmRole)
  | timeout (i : ObmmRole)
  | error (i : ObmmRole)
  /-- `msync` fails behind a payload that is written. -/
  | msync (i : ObmmRole)
  | net (a : NetAction)
deriving DecidableEq, Repr

namespace HandOver

/-- A payload was written, and `stamp_payload` returns -1. -/
def failMsync (s : HandOver) : ObmmRole → Option HandOver
  | .exporter =>
    if s.exporter = .stampA then (s.write demoPayloadA).map (·.setExporter .cleanup) else none
  | .importer =>
    if s.importer = .stampB then (s.write demoPayloadB).map (·.setImporter .cleanup) else none

def act (cmd : ObmmCmdExport) (localCna : UInt32) (s : HandOver) :
    HandOverAction → Option HandOver
  | .node .exporter => s.runExporter cmd localCna
  | .node .importer => s.runImporter
  | .timeout .exporter => s.exporter.timeout.map s.setExporter
  | .timeout .importer => s.importer.timeout.map s.setImporter
  | .error .exporter => s.exporter.error.map s.setExporter
  | .error .importer => s.importer.error.map s.setImporter
  | .msync i => s.failMsync i
  | .net a => (s.net.act a).map fun net => { s with net := net }

/-- Both nodes at their start, with `region` in the memory that will be exported. -/
def start (region : ℕ → UInt8) : HandOver :=
  { exporter := .exportRegion
    importer := .recvMeta
    demoMeta := .zero
    region := region
    net := .empty
    log := [] }

end HandOver

end LinquUb
