import LinquUb.Guest.ObmmDemo
import LinquUb.LTS.History

/-!
# The order of the hand-over in the OBMM demo

* `ObmmDemoMeta.ofBytes_bytes` : the importer reads the metadata that the exporter sends;
* `HandOver.Inv` : what the nodes know where they are, and what the messages say;
* `HandOver.Marked` : what an event of the history says about the region;
* `HandOver.handOver_ordered` : **a node that returns 0 let go of the region after the other one had
  done its part**.

The network may lose, duplicate, delay and reorder the datagrams, and any call may fail.
-/

namespace LinquUb

/-! ### What a message says -/

theorem ObmmDemoMeta.bytes_length (m : ObmmDemoMeta) : m.bytes.length = sizeBytes := by
  simp [bytes, sizeBytes]

/-- A metadata message is read as it was sent. -/
theorem ObmmDemoMeta.ofBytes_bytes (m : ObmmDemoMeta) : ofBytes m.bytes = m := by
  have hword : ∀ v : UInt64, UInt64.ofNat (Wire.ofLeBytes (Wire.leBytes 8 v.toNat)) = v := by
    intro v
    have hlt := v.toNat_lt
    rw [Wire.ofLeBytes_leBytes, Nat.mod_eq_of_lt (by omega), UInt64.ofNat_toNat]
  have hhalf : ∀ v : UInt32, UInt32.ofNat (Wire.ofLeBytes (Wire.leBytes 4 v.toNat)) = v := by
    intro v
    have hlt := v.toNat_lt
    rw [Wire.ofLeBytes_leBytes, Nat.mod_eq_of_lt (by omega), UInt32.ofNat_toNat]
  have hdrop : ∀ n k v, n ≤ k → (Wire.leBytes n v).drop k = [] := by
    intro n k v hle
    exact List.drop_eq_nil_of_le (by simpa using hle)
  have htake : ∀ n v, (Wire.leBytes n v).take n = Wire.leBytes n v := by
    intro n v
    exact List.take_of_length_le (by simp)
  simp (disch := decide) [ofBytes, bytes, List.take_append, List.drop_append, hdrop, htake, hword,
    hhalf]

/-- The number of a memory device has its high bytes zero, so metadata is no text that a node waits
for. -/
theorem not_isText_bytes {m : ObmmDemoMeta} (hmem : m.exportMemId.toNat < 2 ^ 32) :
    isText m.bytes "WRITEBACK_OK" = false := by
  have hlen := m.bytes_length
  have hfive : m.bytes[4]? = some 0 := by
    have hzero : m.exportMemId.toNat / 256 / 256 / 256 / 256 = 0 := by omega
    simp [ObmmDemoMeta.bytes, Wire.leBytes, hzero]
  rw [Bool.eq_false_iff]
  intro htext
  have hstring := (of_decide_eq_true htext).2
  rw [List.take_of_length_le (by rw [hlen]; decide), cString] at hstring
  -- the text has twelve bytes before its end, but the fifth byte of the metadata is zero
  obtain ⟨rest, hbytes⟩ := hstring ▸ List.takeWhile_prefix (· ≠ 0) (l := m.bytes)
  rw [← hbytes, List.getElem?_append_left (by decide)] at hfive
  exact absurd hfive (by decide)

namespace HandOver

variable {cmd : ObmmCmdExport} {localCna : UInt32} {log : List HandOverEvent} {e : HandOverEvent}
  {s s' : HandOver} {region : ℕ → UInt8}

/-- What may be on the network. -/
inductive Says (cmd : ObmmCmdExport) (localCna : UInt32) (log : List HandOverEvent) :
    Datagram ObmmRole (List UInt8) → Prop
  | demoMeta : Says cmd localCna log ⟨.exporter, .importer, (doExportRegion cmd localCna).bytes⟩
  | importReady : Says cmd localCna log ⟨.importer, .exporter, ascii "IMPORT_READY"⟩
  | writeADone : Says cmd localCna log ⟨.exporter, .importer, ascii "WRITE_A_DONE"⟩
  | importOk : Says cmd localCna log ⟨.importer, .exporter, ascii "IMPORT_OK"⟩
  | writebackOk (hverified : .verifyB ∈ log) :
    Says cmd localCna log ⟨.exporter, .importer, ascii "WRITEBACK_OK"⟩
  | unimportOk (hverified : .verifyA ∈ log) (hstamped : .stampB ∈ log) (hgone : .unimport ∈ log) :
    Says cmd localCna log ⟨.importer, .exporter, ascii "UNIMPORT_OK"⟩

theorem Says.snoc {d : Datagram ObmmRole (List UInt8)} (h : Says cmd localCna log d) :
    Says cmd localCna (log ++ [e]) d := by
  cases h with
  | demoMeta => exact .demoMeta
  | importReady => exact .importReady
  | writeADone => exact .writeADone
  | importOk => exact .importOk
  | writebackOk hverified => exact .writebackOk (List.mem_append_left _ hverified)
  | unimportOk hverified hstamped hgone =>
    exact .unimportOk (List.mem_append_left _ hverified) (List.mem_append_left _ hstamped)
      (List.mem_append_left _ hgone)

theorem Says.writeback_inv (hmem : cmd.memId.toNat < 2 ^ 32) {src : ObmmRole} {m : List UInt8}
    (h : Says cmd localCna log ⟨src, .importer, m⟩) (hm : isText m "WRITEBACK_OK" = true) :
    .verifyB ∈ log := by
  cases h with
  | demoMeta =>
    rw [not_isText_bytes (by exact hmem)] at hm
    cases hm
  | writeADone => exact absurd hm (by decide)
  | writebackOk hverified => exact hverified

theorem Says.unimport_inv {src : ObmmRole} {m : List UInt8}
    (h : Says cmd localCna log ⟨src, .exporter, m⟩) (hm : isText m "UNIMPORT_OK" = true) :
    .verifyA ∈ log ∧ .stampB ∈ log ∧ .unimport ∈ log := by
  cases h with
  | importReady => exact absurd hm (by decide)
  | importOk => exact absurd hm (by decide)
  | unimportOk hverified hstamped hgone => exact ⟨hverified, hstamped, hgone⟩

/-- Only the metadata is long enough for metadata. -/
theorem Says.meta_inv {src : ObmmRole} {m : List UInt8}
    (h : Says cmd localCna log ⟨src, .importer, m⟩) (hm : ObmmDemoMeta.sizeBytes ≤ m.length) :
    m = (doExportRegion cmd localCna).bytes := by
  cases h with
  | demoMeta => rfl
  | writeADone => exact absurd hm (by decide)
  | writebackOk => exact absurd hm (by decide)

/-! ### What a node knows -/

/-- What has happened when the exporter is at `pc`. -/
def ExporterKnows (log : List HandOverEvent) : ExporterPc → Prop
  | .sendWritebackOk => .verifyB ∈ log
  | .unexport => .verifyA ∈ log ∧ .stampB ∈ log ∧ .unimport ∈ log
  | .returned 0 => .unexport ∈ log ∧ Before .verifyA .unexport log ∧
    Before .stampB .unexport log ∧ Before .unimport .unexport log
  | _ => True

def ImporterKnows (log : List HandOverEvent) : ImporterPc → Prop
  | .stampB => .verifyA ∈ log
  | .sendImportOk | .waitWritebackOk => .verifyA ∈ log ∧ .stampB ∈ log
  | .unimport => .verifyA ∈ log ∧ .stampB ∈ log ∧ .verifyB ∈ log
  | .sendUnimportOk => .verifyA ∈ log ∧ .stampB ∈ log ∧ .unimport ∈ log ∧
    Before .verifyB .unimport log
  | .returned 0 => .unimport ∈ log ∧ Before .verifyB .unimport log
  | _ => True

/-- The exporter may have let go of the region. -/
def ExporterLetGo : ExporterPc → Prop
  | .returned _ => True
  | _ => False

def ImporterLetGo : ImporterPc → Prop
  | .sendUnimportOk => True
  | .returned _ => True
  | _ => False

theorem ExporterKnows.snoc {pc : ExporterPc} (h : ExporterKnows log pc) (he : e ≠ .unexport) :
    ExporterKnows (log ++ [e]) pc := by
  unfold ExporterKnows at h ⊢
  split at h
  · exact List.mem_append_left _ h
  · obtain ⟨hverified, hstamped, hgone⟩ := h
    exact ⟨List.mem_append_left _ hverified, List.mem_append_left _ hstamped,
      List.mem_append_left _ hgone⟩
  · obtain ⟨hgone, hverified, hstamped, hother⟩ := h
    have hno : ∀ e', e = .unexport → e' ∈ log := fun _ heq => absurd heq he
    exact ⟨List.mem_append_left _ hgone, hverified.snoc (hno _), hstamped.snoc (hno _),
      hother.snoc (hno _)⟩
  · trivial

theorem ImporterKnows.snoc {pc : ImporterPc} (h : ImporterKnows log pc) (he : e ≠ .unimport) :
    ImporterKnows (log ++ [e]) pc := by
  have hmem : ∀ e', e' ∈ log → e' ∈ log ++ [e] := fun _ => List.mem_append_left _
  have hbefore : Before .verifyB .unimport log → Before .verifyB .unimport (log ++ [e]) :=
    fun hold => hold.snoc fun heq => absurd heq he
  unfold ImporterKnows at h ⊢
  split at h
  · exact hmem _ h
  · exact h.imp (hmem _) (hmem _)
  · exact h.imp (hmem _) (hmem _)
  · exact h.imp (hmem _) (And.imp (hmem _) (hmem _))
  · exact h.imp (hmem _) (And.imp (hmem _) (And.imp (hmem _) hbefore))
  · exact h.imp (hmem _) hbefore
  · trivial

structure Inv (cmd : ObmmCmdExport) (localCna : UInt32) (s : HandOver) : Prop where
  net : ∀ d, s.net.Carries d → Says cmd localCna s.log d
  exporter : ExporterKnows s.log s.exporter
  importer : ImporterKnows s.log s.importer
  unexport : .unexport ∈ s.log → ExporterLetGo s.exporter
  unimport : .unimport ∈ s.log → ImporterLetGo s.importer
  imported : s.importer = .recvMeta ∨ s.importer = .returned 1 ∨
    s.demoMeta = doExportRegion cmd localCna

/-! ### Parts of a step -/

theorem Inv.setExporter (h : s.Inv cmd localCna) (pc : ExporterPc)
    (hknows : ExporterKnows s.log pc) (hgo : ExporterLetGo s.exporter → ExporterLetGo pc) :
    (s.setExporter pc).Inv cmd localCna :=
  ⟨h.net, hknows, h.importer, fun hgone => hgo (h.unexport hgone), h.unimport, h.imported⟩

theorem Inv.setImporter (h : s.Inv cmd localCna) (pc : ImporterPc)
    (hknows : ImporterKnows s.log pc) (hgo : ImporterLetGo s.importer → ImporterLetGo pc)
    (hmeta : s.importer ≠ .recvMeta ∧ s.importer ≠ .returned 1 ∨ pc = .recvMeta ∨
      pc = .returned 1) : (s.setImporter pc).Inv cmd localCna := by
  refine ⟨h.net, h.exporter, hknows, h.unexport, fun hgone => hgo (h.unimport hgone), ?_⟩
  rcases hmeta with ⟨hread, hrun⟩ | hstop | hstop
  · rcases h.imported with hpc | hpc | heq
    · exact absurd hpc hread
    · exact absurd hpc hrun
    · exact .inr (.inr heq)
  · exact .inl hstop
  · exact .inr (.inl hstop)

theorem Inv.send (h : s.Inv cmd localCna) {src dst : ObmmRole} {m : List UInt8}
    (hm : Says cmd localCna s.log ⟨src, dst, m⟩) : (s.send src dst m).Inv cmd localCna := by
  refine ⟨?_, h.exporter, h.importer, h.unexport, h.unimport, h.imported⟩
  intro d hcarries
  rcases Net.carries_post.1 hcarries with hold | rfl
  · exact h.net d hold
  · exact hm

theorem Inv.write (h : s.Inv cmd localCna) {payload : List UInt8}
    (hs : s.write payload = some s') : s'.Inv cmd localCna ∧ s'.exporter = s.exporter ∧
      s'.importer = s.importer ∧ s'.log = s.log := by
  obtain ⟨region, -, rfl⟩ := Option.map_eq_some_iff.1 hs
  exact ⟨⟨h.net, h.exporter, h.importer, h.unexport, h.unimport, h.imported⟩, rfl, rfl, rfl⟩

/-- The exporter goes on to `pc` and has done `e`. -/
theorem Inv.exporterDoes (h : s.Inv cmd localCna) {pc : ExporterPc} (he : e ≠ .unimport)
    (hknows : ExporterKnows (s.log ++ [e]) pc)
    (hgo : ExporterLetGo s.exporter ∨ e = .unexport → ExporterLetGo pc) :
    ((s.setExporter pc).push e).Inv cmd localCna := by
  refine ⟨fun d hd => (h.net d hd).snoc, hknows, h.importer.snoc he, fun hgone => ?_,
    fun hgone => ?_, h.imported⟩
  · rcases List.mem_append.1 hgone with hold | hnew
    · exact hgo (.inl (h.unexport hold))
    · exact hgo (.inr (List.mem_singleton.1 hnew).symm)
  · rcases List.mem_append.1 hgone with hold | hnew
    · exact h.unimport hold
    · exact absurd (List.mem_singleton.1 hnew).symm he

theorem Inv.importerDoes (h : s.Inv cmd localCna) {pc : ImporterPc} (he : e ≠ .unexport)
    (hknows : ImporterKnows (s.log ++ [e]) pc)
    (hgo : ImporterLetGo s.importer ∨ e = .unimport → ImporterLetGo pc)
    (hmeta : s.importer ≠ .recvMeta ∧ s.importer ≠ .returned 1) :
    ((s.setImporter pc).push e).Inv cmd localCna := by
  refine ⟨fun d hd => (h.net d hd).snoc, h.exporter.snoc he, hknows, fun hgone => ?_,
    fun hgone => ?_, ?_⟩
  · rcases List.mem_append.1 hgone with hold | hnew
    · exact h.unexport hold
    · exact absurd (List.mem_singleton.1 hnew).symm he
  · rcases List.mem_append.1 hgone with hold | hnew
    · exact hgo (.inl (h.unimport hold))
    · exact hgo (.inr (List.mem_singleton.1 hnew).symm)
  · rcases h.imported with hpc | hpc | heq
    · exact absurd hpc hmeta.1
    · exact absurd hpc hmeta.2
    · exact .inr (.inr heq)

/-- The node reads a message. -/
theorem Inv.take (h : s.Inv cmd localCna) {i src : ObmmRole} {m : List UInt8}
    {rest : List (ObmmRole × List UInt8)} (hsocket : s.net.socket i = (src, m) :: rest) :
    ({ s with net := s.net.take i rest } : HandOver).Inv cmd localCna :=
  ⟨fun d hd => h.net d (Net.take_carries hsocket hd), h.exporter, h.importer, h.unexport, h.unimport,
    h.imported⟩

theorem Inv.recv (h : s.Inv cmd localCna) {i : ObmmRole} {ok : List UInt8 → Bool}
    {next : List UInt8 → HandOver → HandOver} {again : HandOver → HandOver}
    (hnext : ∀ src m rest, Says cmd localCna s.log ⟨src, i, m⟩ → ok m = true →
      ({ s with net := s.net.take i rest } : HandOver).Inv cmd localCna →
      (next m { s with net := s.net.take i rest }).Inv cmd localCna)
    (hagain : ∀ net, ({ s with net := net } : HandOver).Inv cmd localCna →
      (again { s with net := net }).Inv cmd localCna) : (s.recv i ok next again).Inv cmd localCna := by
  unfold HandOver.recv
  split
  · exact hagain s.net h
  · rename_i src m rest hsocket
    dsimp only
    split_ifs with hok
    · exact hnext src m rest (h.net _ (Net.carries_head hsocket)) hok (h.take hsocket)
    · exact hagain _ (h.take hsocket)

/-! ### The steps -/

theorem Inv.recvReady (h : s.Inv cmd localCna) (hpc : s.exporter = .recvReady) :
    (s.recv .exporter (isText · "IMPORT_READY") (fun _ s => s.setExporter .stampA)
      fun s => s.setExporter .sendMeta).Inv cmd localCna := by
  refine h.recv (fun _ _ _ _ _ hread => ?_) fun _ hread => ?_
  · exact hread.setExporter _ trivial (by simp [hpc, ExporterLetGo])
  · exact hread.setExporter _ trivial (by simp [hpc, ExporterLetGo])

theorem Inv.stampA (h : s.Inv cmd localCna) (hpc : s.exporter = .stampA) {s₁ : HandOver}
    (hwrite : s.write demoPayloadA = some s₁) :
    ((s₁.setExporter .sendWriteADone).push .stampA).Inv cmd localCna := by
  obtain ⟨hwritten, hsame, -, -⟩ := h.write hwrite
  exact hwritten.exporterDoes (by decide) trivial (by simp [hsame, hpc, ExporterLetGo])

theorem Inv.verifyB (h : s.Inv cmd localCna) (hpc : s.exporter = .verifyB) :
    ((s.setExporter .sendWritebackOk).push .verifyB).Inv cmd localCna := by
  refine h.exporterDoes (by decide) ?_ (by simp [hpc, ExporterLetGo])
  exact List.mem_append_right _ (List.mem_singleton_self _)

/-- The exporter lets go of the region once the importer has. -/
theorem Inv.unexports (h : s.Inv cmd localCna) (hpc : s.exporter = .unexport) :
    ((s.setExporter (.returned 0)).push .unexport).Inv cmd localCna := by
  have hknows := h.exporter
  have hgo := h.unexport
  rw [hpc] at hknows hgo
  obtain ⟨hverified, hstamped, hgone⟩ := hknows
  -- nothing was let go so far, so everything stands before the first time
  have hfirst : .unexport ∉ s.log := fun hmem => (hgo hmem).elim
  refine h.exporterDoes (by decide) ?_ (fun _ => trivial)
  exact ⟨List.mem_append_right _ (List.mem_singleton_self _),
    (before_of_not_mem hfirst).snoc fun _ => hverified,
    (before_of_not_mem hfirst).snoc fun _ => hstamped,
    (before_of_not_mem hfirst).snoc fun _ => hgone⟩

theorem Inv.runExporter (h : s.Inv cmd localCna) (hs : s.runExporter cmd localCna = some s') :
    s'.Inv cmd localCna := by
  have hknows := h.exporter
  cases hpc : s.exporter <;> simp only [HandOver.runExporter, hpc] at hs <;> rw [hpc] at hknows
  case exportRegion | mapRegion =>
    cases hs
    exact h.setExporter _ trivial (by simp [hpc, ExporterLetGo])
  case sendMeta =>
    cases hs
    exact (h.setExporter .recvReady trivial (by simp [hpc, ExporterLetGo])).send .demoMeta
  case recvReady =>
    cases hs
    exact h.recvReady hpc
  case stampA =>
    split at hs <;> cases hs
    · rename_i s₁ hwrite
      exact h.stampA hpc hwrite
    · exact h.setExporter _ trivial (by simp [hpc, ExporterLetGo])
  case sendWriteADone =>
    cases hs
    exact (h.setExporter .waitImportOk trivial (by simp [hpc, ExporterLetGo])).send .writeADone
  case waitImportOk =>
    cases hs
    refine h.recv (fun _ _ _ _ _ hread => ?_) fun _ hread => hread
    exact hread.setExporter _ trivial (by simp [hpc, ExporterLetGo])
  case verifyB =>
    split_ifs at hs <;> cases hs
    · exact h.verifyB hpc
    · exact h
  case sendWritebackOk =>
    cases hs
    exact (h.setExporter .waitUnimportOk trivial (by simp [hpc, ExporterLetGo])).send
      (.writebackOk hknows)
  case waitUnimportOk =>
    cases hs
    refine h.recv (fun _ _ _ hsaid hm hread => ?_) fun _ hread => hread
    exact hread.setExporter _ (hsaid.unimport_inv hm) (by simp [hpc, ExporterLetGo])
  case unexport =>
    cases hs
    exact h.unexports hpc
  case cleanup =>
    cases hs
    exact h.exporterDoes (by decide) trivial (fun _ => trivial)
  case returned => cases hs

theorem Inv.recvMeta (h : s.Inv cmd localCna) (hpc : s.importer = .recvMeta) :
    (s.recv .importer (fun m => ObmmDemoMeta.sizeBytes ≤ m.length)
      (fun m s => { s.setImporter .importRegion with demoMeta := .ofBytes m }) id).Inv cmd
        localCna := by
  have hgo := h.unimport
  rw [hpc] at hgo
  refine h.recv (fun _ m _ hsaid hm hread => ?_) fun _ hread => hread
  obtain rfl := hsaid.meta_inv (of_decide_eq_true hm)
  refine ⟨hread.net, hread.exporter, trivial, hread.unexport, fun hgone => (hgo hgone).elim, ?_⟩
  exact .inr (.inr (ObmmDemoMeta.ofBytes_bytes _))

theorem Inv.verifyA (h : s.Inv cmd localCna) (hpc : s.importer = .verifyA) :
    ((s.setImporter .stampB).push .verifyA).Inv cmd localCna := by
  refine h.importerDoes (by decide) ?_ (by simp [hpc, ImporterLetGo]) (by simp [hpc])
  exact List.mem_append_right _ (List.mem_singleton_self _)

theorem Inv.stampB (h : s.Inv cmd localCna) (hpc : s.importer = .stampB) {s₁ : HandOver}
    (hwrite : s.write demoPayloadB = some s₁) :
    ((s₁.setImporter .sendImportOk).push .stampB).Inv cmd localCna := by
  have hknows := h.importer
  rw [hpc] at hknows
  obtain ⟨hwritten, -, hsame, hlog⟩ := h.write hwrite
  refine hwritten.importerDoes (by decide) ?_ (by simp [hsame, hpc, ImporterLetGo])
    (by simp [hsame, hpc])
  rw [hlog]
  exact ⟨List.mem_append_left _ hknows, List.mem_append_right _ (List.mem_singleton_self _)⟩

/-- The importer lets go of the region once payload B has been verified. -/
theorem Inv.unimports (h : s.Inv cmd localCna) (hpc : s.importer = .unimport) :
    ((s.setImporter .sendUnimportOk).push .unimport).Inv cmd localCna := by
  have hknows := h.importer
  have hgo := h.unimport
  rw [hpc] at hknows hgo
  obtain ⟨hverified, hstamped, hother⟩ := hknows
  have hfirst : .unimport ∉ s.log := fun hmem => (hgo hmem).elim
  refine h.importerDoes (by decide) ?_ (fun _ => trivial) (by simp [hpc])
  exact ⟨List.mem_append_left _ hverified, List.mem_append_left _ hstamped,
    List.mem_append_right _ (List.mem_singleton_self _),
    (before_of_not_mem hfirst).snoc fun _ => hother⟩

theorem Inv.runImporter (hmem : cmd.memId.toNat < 2 ^ 32) (h : s.Inv cmd localCna)
    (hs : s.runImporter = some s') : s'.Inv cmd localCna := by
  have hknows := h.importer
  cases hpc : s.importer <;> simp only [HandOver.runImporter, hpc] at hs <;> rw [hpc] at hknows
  case recvMeta =>
    cases hs
    exact h.recvMeta hpc
  case importRegion | mapRegion =>
    cases hs
    exact h.setImporter _ trivial (by simp [hpc, ImporterLetGo]) (by simp [hpc])
  case sendImportReady =>
    cases hs
    exact (h.setImporter .waitWriteADone trivial (by simp [hpc, ImporterLetGo])
      (by simp [hpc])).send .importReady
  case waitWriteADone =>
    cases hs
    refine h.recv (fun _ _ _ _ _ hread => ?_) fun _ hread => hread
    exact hread.setImporter _ trivial (by simp [hpc, ImporterLetGo]) (by simp [hpc])
  case verifyA =>
    split_ifs at hs <;> cases hs
    · exact h.verifyA hpc
    · exact h
  case stampB =>
    split at hs <;> cases hs
    · rename_i s₁ hwrite
      exact h.stampB hpc hwrite
    · exact h.setImporter _ trivial (by simp [hpc, ImporterLetGo]) (by simp [hpc])
  case sendImportOk =>
    cases hs
    exact (h.setImporter .waitWritebackOk hknows (by simp [hpc, ImporterLetGo])
      (by simp [hpc])).send .importOk
  case waitWritebackOk =>
    cases hs
    refine h.recv (fun _ _ _ hsaid hm hread => ?_) fun _ hread => hread
    exact hread.setImporter _ ⟨hknows.1, hknows.2, hsaid.writeback_inv hmem hm⟩
      (by simp [hpc, ImporterLetGo]) (by simp [hpc])
  case unimport =>
    cases hs
    exact h.unimports hpc
  case sendUnimportOk =>
    cases hs
    obtain ⟨hverified, hstamped, hgone, hbefore⟩ := hknows
    exact (h.setImporter (.returned 0) ⟨hgone, hbefore⟩ (fun _ => trivial)
      (by simp [hpc])).send (.unimportOk hverified hstamped hgone)
  case cleanup =>
    cases hs
    exact h.importerDoes (by decide) trivial (fun _ => trivial) (by simp [hpc])
  case returned => cases hs

/-- Nothing is known where a failure takes the exporter. -/
theorem exporter_failure {pc pc' : ExporterPc} (h : pc.timeout = some pc' ∨ pc.error = some pc') :
    (∀ log, ExporterKnows log pc') ∧ (ExporterLetGo pc → ExporterLetGo pc') := by
  rcases h with h | h <;> cases pc <;> cases h <;> exact ⟨fun _ => trivial, by simp [ExporterLetGo]⟩

theorem importer_failure {pc pc' : ImporterPc} (h : pc.timeout = some pc' ∨ pc.error = some pc') :
    (∀ log, ImporterKnows log pc') ∧ (ImporterLetGo pc → ImporterLetGo pc') ∧
      (pc ≠ .recvMeta ∧ pc ≠ .returned 1 ∨ pc' = .recvMeta ∨ pc' = .returned 1) := by
  rcases h with h | h <;> cases pc <;> cases h <;>
    exact ⟨fun _ => trivial, by simp [ImporterLetGo], by simp⟩

theorem Inv.failMsync (h : s.Inv cmd localCna) {i : ObmmRole} (hs : s.failMsync i = some s') :
    s'.Inv cmd localCna := by
  cases i <;> simp only [HandOver.failMsync] at hs <;> split_ifs at hs with hpc <;>
    obtain ⟨s₁, hwrite, rfl⟩ := Option.map_eq_some_iff.1 hs <;>
    obtain ⟨hwritten, hexporter, himporter, -⟩ := h.write hwrite
  · exact hwritten.setExporter _ trivial (by simp [hexporter, hpc, ExporterLetGo])
  · exact hwritten.setImporter _ trivial (by simp [himporter, hpc, ImporterLetGo])
      (by simp [himporter, hpc])

theorem Inv.act (hmem : cmd.memId.toNat < 2 ^ 32) (h : s.Inv cmd localCna) {a : HandOverAction}
    (hs : s.act cmd localCna a = some s') : s'.Inv cmd localCna := by
  have hexporter : ∀ pc, s.exporter.timeout = some pc ∨ s.exporter.error = some pc →
      (s.setExporter pc).Inv cmd localCna := by
    intro pc hfail
    obtain ⟨hknows, hgo⟩ := exporter_failure hfail
    exact h.setExporter _ (hknows _) hgo
  have himporter : ∀ pc, s.importer.timeout = some pc ∨ s.importer.error = some pc →
      (s.setImporter pc).Inv cmd localCna := by
    intro pc hfail
    obtain ⟨hknows, hgo, hmeta⟩ := importer_failure hfail
    exact h.setImporter _ (hknows _) hgo hmeta
  cases a with
  | node i =>
    cases i with
    | exporter => exact h.runExporter hs
    | importer => exact h.runImporter hmem hs
  | timeout i =>
    cases i <;> obtain ⟨pc, hfail, rfl⟩ := Option.map_eq_some_iff.1 hs
    · exact hexporter pc (.inl hfail)
    · exact himporter pc (.inl hfail)
  | error i =>
    cases i <;> obtain ⟨pc, hfail, rfl⟩ := Option.map_eq_some_iff.1 hs
    · exact hexporter pc (.inr hfail)
    · exact himporter pc (.inr hfail)
  | msync i => exact h.failMsync hs
  | net a =>
    obtain ⟨net, hnet, rfl⟩ := Option.map_eq_some_iff.1 hs
    exact ⟨fun d hd => h.net d (Net.act_carries hnet hd), h.exporter, h.importer, h.unexport,
      h.unimport, h.imported⟩

theorem start_inv (cmd : ObmmCmdExport) (localCna : UInt32) (region : ℕ → UInt8) :
    (start region).Inv cmd localCna :=
  ⟨fun d hd => absurd hd (Net.not_carries_empty d), trivial, trivial,
    fun hgone => absurd hgone List.not_mem_nil, fun hgone => absurd hgone List.not_mem_nil, .inl rfl⟩

theorem run_inv (hmem : cmd.memId.toNat < 2 ^ 32) {actions : List HandOverAction}
    (hrun : LTS.run (act cmd localCna) (start region) actions = some s) : s.Inv cmd localCna := by
  have hkeeps : LTS.Keeps (act cmd localCna) (Inv cmd localCna) := fun _ _ _ hs ha => hs.act hmem ha
  exact LTS.run_invariant hkeeps (start_inv cmd localCna region) hrun

/-! ### What the events say about the region -/

end HandOver

/-- A check is noted when the payload is in the region, and a stamp when it has been written. -/
def HandOverEvent.Marks (s s' : HandOver) : HandOverEvent → Prop
  | .stampA => regionMatchesPayload s'.region demoPayloadA = true
  | .verifyA => regionMatchesPayload s.region demoPayloadA = true
  | .stampB => regionMatchesPayload s'.region demoPayloadB = true
  | .verifyB => regionMatchesPayload s.region demoPayloadB = true
  | .unimport | .unexport => True

theorem regionMatchesPayload_stamp {region region' : ℕ → UInt8} {payload : List UInt8}
    (h : stampPayload region payload = some region') : regionMatchesPayload region' payload = true := by
  unfold stampPayload at h
  split_ifs at h
  cases h
  rw [regionMatchesPayload, List.all_eq_true]
  intro k hk
  have hlt : k < payload.length := List.mem_range.1 hk
  simp [List.getElem?_eq_getElem hlt]

namespace HandOver

variable {cmd : ObmmCmdExport} {localCna : UInt32} {s s' : HandOver}

/-- A step notes one event at most, and what it says is so. -/
def Marked (s s' : HandOver) : Prop :=
  s'.log = s.log ∨ ∃ e : HandOverEvent, s'.log = s.log ++ [e] ∧ e.Marks s s'

theorem write_matches {payload : List UInt8} (h : s.write payload = some s') :
    s'.log = s.log ∧ regionMatchesPayload s'.region payload = true := by
  obtain ⟨region, hstamp, rfl⟩ := Option.map_eq_some_iff.1 h
  exact ⟨rfl, regionMatchesPayload_stamp hstamp⟩

theorem recv_log {i : ObmmRole} {ok : List UInt8 → Bool} {next : List UInt8 → HandOver → HandOver}
    {again : HandOver → HandOver} (hnext : ∀ m s, (next m s).log = s.log)
    (hagain : ∀ s, (again s).log = s.log) : (s.recv i ok next again).log = s.log := by
  unfold HandOver.recv
  split
  · exact hagain s
  · dsimp only
    split_ifs
    · exact hnext _ _
    · exact hagain _

theorem runExporter_marked (hs : s.runExporter cmd localCna = some s') : s.Marked s' := by
  cases hpc : s.exporter <;> simp only [HandOver.runExporter, hpc] at hs
  case stampA =>
    split at hs <;> cases hs
    · rename_i s₁ hwrite
      obtain ⟨hlog, hmatches⟩ := write_matches hwrite
      exact .inr ⟨.stampA, congrArg (· ++ [HandOverEvent.stampA]) hlog, hmatches⟩
    · exact .inl rfl
  case verifyB =>
    split_ifs at hs with hmatches <;> cases hs
    · exact .inr ⟨.verifyB, rfl, hmatches⟩
    · exact .inl rfl
  case recvReady | waitImportOk | waitUnimportOk =>
    cases hs
    exact .inl (recv_log (fun _ _ => rfl) fun _ => rfl)
  case unexport | cleanup =>
    cases hs
    exact .inr ⟨.unexport, rfl, trivial⟩
  case returned => cases hs
  all_goals
    cases hs
    exact .inl rfl

theorem runImporter_marked (hs : s.runImporter = some s') : s.Marked s' := by
  cases hpc : s.importer <;> simp only [HandOver.runImporter, hpc] at hs
  case verifyA =>
    split_ifs at hs with hmatches <;> cases hs
    · exact .inr ⟨.verifyA, rfl, hmatches⟩
    · exact .inl rfl
  case stampB =>
    split at hs <;> cases hs
    · rename_i s₁ hwrite
      obtain ⟨hlog, hmatches⟩ := write_matches hwrite
      exact .inr ⟨.stampB, congrArg (· ++ [HandOverEvent.stampB]) hlog, hmatches⟩
    · exact .inl rfl
  case recvMeta | waitWriteADone | waitWritebackOk =>
    cases hs
    exact .inl (recv_log (fun _ _ => rfl) fun _ => rfl)
  case unimport | cleanup =>
    cases hs
    exact .inr ⟨.unimport, rfl, trivial⟩
  case returned => cases hs
  all_goals
    cases hs
    exact .inl rfl

theorem act_marked {a : HandOverAction} (hs : s.act cmd localCna a = some s') : s.Marked s' := by
  cases a with
  | node i =>
    cases i with
    | exporter => exact runExporter_marked hs
    | importer => exact runImporter_marked hs
  | timeout i | error i =>
    cases i <;> obtain ⟨pc, -, rfl⟩ := Option.map_eq_some_iff.1 hs <;> exact .inl rfl
  | msync i =>
    cases i <;> simp only [HandOver.act, HandOver.failMsync] at hs <;> split_ifs at hs <;>
      obtain ⟨s₁, hwrite, rfl⟩ := Option.map_eq_some_iff.1 hs <;>
      exact .inl (write_matches hwrite).1
  | net a =>
    obtain ⟨net, -, rfl⟩ := Option.map_eq_some_iff.1 hs
    exact .inl rfl

/-- All steps of all runs. -/
theorem everyStep_marked (actions : List HandOverAction) (s : HandOver) :
    LTS.EveryStep (act cmd localCna) (fun s _ s' => s.Marked s') s actions := by
  induction actions generalizing s with
  | nil => trivial
  | cons a actions ih => exact fun s' hs => ⟨act_marked hs, ih s'⟩

/-- **The hand-over is ordered.**  If the exporter returns 0, then the importer had verified payload A,
written payload B and unimported the region before the exporter let go of it; if the importer returns
0, then it had imported what the exporter offered, and the exporter had verified payload B before the
importer let go of the region.  Every check was noted by a step that found its payload in the region,
and every stamp by a step that left it there. -/
theorem handOver_ordered (hmem : cmd.memId.toNat < 2 ^ 32) (localCna : UInt32) (region : ℕ → UInt8)
    {actions : List HandOverAction}
    (hrun : LTS.run (act cmd localCna) (start region) actions = some s) :
    (s.exporter = .returned 0 → .unexport ∈ s.log ∧ Before .verifyA .unexport s.log ∧
      Before .stampB .unexport s.log ∧ Before .unimport .unexport s.log) ∧
    (s.importer = .returned 0 → .unimport ∈ s.log ∧ Before .verifyB .unimport s.log ∧
      s.demoMeta = doExportRegion cmd localCna) ∧
    LTS.EveryStep (act cmd localCna) (fun s _ s' => s.Marked s') (start region) actions := by
  have hinv := run_inv hmem hrun
  refine ⟨fun hpc => ?_, fun hpc => ?_, everyStep_marked actions _⟩
  · have hknows := hinv.exporter
    rwa [hpc] at hknows
  · have hknows := hinv.importer
    rw [hpc] at hknows
    obtain ⟨hgone, hbefore⟩ := hknows
    rcases hinv.imported with hread | hstop | hmeta
    · exact absurd (hpc.symm.trans hread) (by decide)
    · exact absurd (hpc.symm.trans hstop) (by decide)
    · exact ⟨hgone, hbefore, hmeta⟩

/-- Both nodes up to the end, with one metadata message that is lost and one that comes late. -/
def fullHandOver : List HandOverAction :=
  let exporter := HandOverAction.node .exporter
  let importer := HandOverAction.node .importer
  let deliver := HandOverAction.net (.deliver 0)
  List.replicate 3 exporter ++ [.net (.drop 0)] ++ List.replicate 2 exporter ++
    [.net (.duplicate 0), deliver] ++ List.replicate 4 importer ++
    [deliver, deliver] ++ List.replicate 3 exporter ++ [deliver] ++ List.replicate 5 importer ++
    [deliver] ++ List.replicate 3 exporter ++ [deliver] ++ List.replicate 3 importer ++
    [deliver] ++ List.replicate 2 exporter

theorem handOver_ordered_fullHandOver :
    ∃ s, LTS.run (act ⟨1, 0x10000, 7⟩ 1) (start fun _ => 0) fullHandOver = some s ∧
      s.exporter = .returned 0 ∧ s.importer = .returned 0 ∧ Before .unimport .unexport s.log ∧
      Before .verifyB .unimport s.log ∧
      LTS.EveryStep (act ⟨1, 0x10000, 7⟩ 1) (fun s _ s' => s.Marked s') (start fun _ => 0)
        fullHandOver := by
  have hany : (LTS.run (act ⟨1, 0x10000, 7⟩ 1) (start fun _ => 0) fullHandOver).any (fun s =>
      s.exporter = .returned 0 ∧ s.importer = .returned 0) = true := by
    decide +kernel
  obtain ⟨s, hrun, hpcs⟩ := (Option.any_eq_true _ _).1 hany
  obtain ⟨hexporter, himporter⟩ := of_decide_eq_true hpcs
  obtain ⟨hgone, hback, hmarked⟩ := handOver_ordered (by decide) 1 (fun _ => 0) hrun
  exact ⟨s, hrun, hexporter, himporter, (hgone hexporter).2.2.2, (hback himporter).2.1, hmarked⟩

end HandOver

end LinquUb
