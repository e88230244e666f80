import LinquUb.LTS.KeyValueLines
import LinquUb.Runtime.Engine
import Mathlib.Data.Finset.Insert
import Mathlib.Logic.Function.Basic

/-!
# Dispatch manifests

A dispatch on the chip backend is handed to an adapter script in a file of `KEY=value` lines, which
`write_simpler_dispatch_manifest` of `sim-runtime` writes and the loop at the start of
`run_simpler_dispatch.sh` reads.

* `ManifestKey` : the keys, in the order in which they are written;
* `SimplerDispatchManifest.field` : the text of a field, if it is written;
* `readManifest` : the shell variables behind the loop; `none` is the exit on an unknown key;
* `SimplerDispatchManifest.roundTrips_iff` : **the fields are recovered exactly if each of them
  survives the line format.**

The id of the task, which the manifest keeps as a text, is read as its decimal digits.
-/

namespace LinquUb

open LTS

structure SimplerDispatchManifest where
  version : UInt32
  opId : OpId
  task : String
  functionName : Option String
  targetLevel : Option String
  targetNode : Option NodeId
  inputSegmentCount : ℕ
  profile : Option String
  platform : String
  runtimeVariant : Option String
  callableHint : Option String
deriving DecidableEq, Repr

inductive ManifestKey
  | manifestVersion | opId | taskId | functionName | targetLevel | targetNode | inputSegmentCount
  | profile | platform | runtimeVariant | callableHint
deriving DecidableEq, Repr

namespace ManifestKey

def all : List ManifestKey :=
  [manifestVersion, opId, taskId, functionName, targetLevel, targetNode, inputSegmentCount, profile,
    platform, runtimeVariant, callableHint]

def name : ManifestKey → String
  | manifestVersion => "MANIFEST_VERSION"
  | opId => "OP_ID"
  | taskId => "TASK_ID"
  | functionName => "FUNCTION_NAME"
  | targetLevel => "TARGET_LEVEL"
  | targetNode => "TARGET_NODE"
  | inputSegmentCount => "INPUT_SEGMENT_COUNT"
  | profile => "PROFILE"
  | platform => "PLATFORM"
  | runtimeVariant => "RUNTIME_VARIANT"
  | callableHint => "CALLABLE_HINT"

/-- The `case` of the reader. -/
def ofName (key : String) : Option ManifestKey := all.find? fun k => k.name = key

theorem mem_all (k : ManifestKey) : k ∈ all := by cases k <;> decide

theorem nodup_all : all.Nodup := by decide

theorem ofName_name (k : ManifestKey) : ofName k.name = some k := by cases k <;> decide

theorem name_ne_empty (k : ManifestKey) : k.name ≠ "" := by cases k <;> decide

theorem plainKey_name (k : ManifestKey) : PlainKey '=' k.name.toList := by
  cases k <;> exact ⟨by decide, by decide, by decide⟩

end ManifestKey

/-! ### Writing -/

namespace SimplerDispatchManifest

/-- The text of a field; an optional field that is missing is not written. -/
def field (m : SimplerDispatchManifest) : ManifestKey → Option String
  | .manifestVersion => some (toString m.version.toNat)
  | .opId => some (toString m.opId.toNat)
  | .taskId => some m.task
  | .functionName => m.functionName
  | .targetLevel => m.targetLevel
  | .targetNode => m.targetNode.map fun node => toString node.toNat
  | .inputSegmentCount => some (toString m.inputSegmentCount)
  | .profile => m.profile
  | .platform => some m.platform
  | .runtimeVariant => m.runtimeVariant
  | .callableHint => m.callableHint

end SimplerDispatchManifest

def pushField (m : SimplerDispatchManifest) (content : String) (key : ManifestKey) : String :=
  match m.field key with
  | some value => content ++ key.name ++ "=" ++ value ++ "\n"
  | none => content

/-- The content of the file. -/
def writeSimplerDispatchManifest (m : SimplerDispatchManifest) : String :=
  ManifestKey.all.foldl (pushField m) ""

/-! ### Reading -/

abbrev ManifestVariables := ManifestKey → String

/-- The body of the loop. -/
def assignVariable (vars : ManifestVariables) (entry : List Char × List Char) :
    Option ManifestVariables :=
  if entry.1 = [] then some vars
  else (ManifestKey.ofName (.ofList entry.1)).map fun key =>
    Function.update vars key (.ofList entry.2)

def readManifest (content : String) : Option ManifestVariables :=
  (readPairs '=' content.toList).foldlM assignVariable fun _ => ""

/-! ### Manifests of dispatches -/

def backendProfileName : DispatchBackendProfile → String
  | .hostVector => "host_vector"
  | .tmrbVector => "tmrb_vector"
  | .hostMatmul => "host_matmul"

def runtimeVariantName : DispatchRuntimeVariant → String
  | .hostBuildGraph => "host_build_graph"
  | .tensormapAndRingbuffer => "tensormap_and_ringbuffer"

/-- The derived `Debug` of a level. -/
def PlLevel.debug : PlLevel → String
  | .l0 => "L0" | .l1 => "L1" | .l2 => "L2" | .l3 => "L3"
  | .l4 => "L4" | .l5 => "L5" | .l6 => "L6" | .l7 => "L7"

def simplerDispatchManifest (opId : OpId) (op : RuntimeOpRecord)
    (backendSpec : Option DispatchBackendSpec) : SimplerDispatchManifest :=
  { version := 1
    opId
    task := toString op.task.taskId.toNat
    functionName := op.functionName
    targetLevel := op.targetLevel.map (·.debug)
    targetNode := op.targetNode
    inputSegmentCount := op.inputSegmentCount
    profile := backendSpec.map fun spec => backendProfileName spec.profile
    platform := (backendSpec.map fun spec => spec.platform).getD "a2a3sim"
    runtimeVariant := backendSpec.map fun spec => runtimeVariantName spec.runtimeVariant
    callableHint := backendSpec.bind fun spec => spec.callableHint }

/-! ### The round trip -/

namespace SimplerDispatchManifest

variable (m : SimplerDispatchManifest)

/-- The entries of the file for some of the keys. -/
def entriesOf (keys : List ManifestKey) : List (List Char × List Char) :=
  keys.filterMap fun key => (m.field key).map fun value => (key.name.toList, value.toList)

def entries : List (List Char × List Char) := m.entriesOf ManifestKey.all

/-- What the variables should be: a field that is not written leaves its variable empty. -/
def texts : ManifestVariables := fun key => (m.field key).getD ""

/-- The text of every field survives the line format. -/
def Clean : Prop := ∀ key value, m.field key = some value → Survives '=' value.toList

/-- Every variable holds the text of its field, and the file has no other lines. -/
structure RoundTrips : Prop where
  recovered : readManifest (writeSimplerDispatchManifest m) = some m.texts
  apart : readPairs '=' (writeSimplerDispatchManifest m).toList = m.entries

/-- A variable is empty only if its field is missing. -/
def PresenceShows : Prop := ∀ key, m.texts key = "" ↔ m.field key = none

variable {m}

theorem toList_foldl_pushField (keys : List ManifestKey) (content : String) :
    (keys.foldl (pushField m) content).toList =
      content.toList ++ writePairs '=' (m.entriesOf keys) := by
  induction keys generalizing content with
  | nil => exact (List.append_nil _).symm
  | cons key keys ih =>
    rw [List.foldl_cons, ih]
    unfold pushField entriesOf
    cases hfield : m.field key with
    | none => rw [List.filterMap_cons_none (by rw [hfield]; rfl)]
    | some value =>
      rw [List.filterMap_cons_some (by rw [hfield]; rfl)]
      simp [writePairs, pairLine, String.toList_append]

theorem toList_write : (writeSimplerDispatchManifest m).toList = writePairs '=' m.entries := by
  rw [writeSimplerDispatchManifest, toList_foldl_pushField, String.toList_empty, List.nil_append]
  rfl

theorem mem_entries_iff {entry : List Char × List Char} : entry ∈ m.entries ↔
    ∃ key value, m.field key = some value ∧ (key.name.toList, value.toList) = entry := by
  simp only [entries, entriesOf, List.mem_filterMap, Option.map_eq_some_iff]
  constructor
  · rintro ⟨key, -, value, hfield, hentry⟩
    exact ⟨key, value, hfield, hentry⟩
  · rintro ⟨key, value, hfield, hentry⟩
    exact ⟨key, key.mem_all, value, hfield, hentry⟩

/-- The lines are the entries of the manifest exactly if its fields survive. -/
theorem readPairs_write_iff :
    readPairs '=' (writeSimplerDispatchManifest m).toList = m.entries ↔ m.Clean := by
  rw [toList_write, readPairs_writePairs_iff _ (by decide) (by decide)]
  · constructor
    · exact fun h key value hfield => h _ (mem_entries_iff.2 ⟨key, value, hfield, rfl⟩)
    · rintro h entry hentry
      obtain ⟨key, value, hfield, rfl⟩ := mem_entries_iff.1 hentry
      exact h key value hfield
  · rintro entry hentry
    obtain ⟨key, value, -, rfl⟩ := mem_entries_iff.1 hentry
    exact key.plainKey_name

/-- Reading entries assigns the variables of their keys. -/
theorem foldlM_assignVariable {keys : List ManifestKey} (hkeys : keys.Nodup)
    (vars : ManifestVariables) :
    (m.entriesOf keys).foldlM assignVariable vars =
      some fun key => if key ∈ keys then (m.field key).getD (vars key) else vars key := by
  induction keys generalizing vars with
  | nil => rfl
  | cons key keys ih =>
    obtain ⟨hnotMem, hkeys⟩ := List.nodup_cons.1 hkeys
    have hothers : ∀ k, k ≠ key → (k ∈ key :: keys ↔ k ∈ keys) := by
      intro k hk
      rw [List.mem_cons, or_iff_right hk]
    unfold entriesOf
    cases hfield : m.field key with
    | none =>
      rw [List.filterMap_cons_none (by rw [hfield]; rfl)]
      refine (ih hkeys vars).trans (congrArg some (funext fun k => ?_))
      by_cases hk : k = key
      · subst hk
        rw [if_neg hnotMem, if_pos List.mem_cons_self, hfield, Option.getD_none]
      · simp only [hothers k hk]
    | some value =>
      rw [List.filterMap_cons_some (by rw [hfield]; rfl), List.foldlM_cons]
      have hassign : assignVariable vars (key.name.toList, value.toList) =
          some (Function.update vars key value) := by
        have hname : key.name.toList ≠ [] := by
          intro hempty
          exact key.name_ne_empty (String.toList_eq_nil_iff.1 hempty)
        simp only [assignVariable, if_neg hname, String.ofList_toList, key.ofName_name,
          Option.map_some]
      rw [hassign]
      refine (ih hkeys _).trans (congrArg some (funext fun k => ?_))
      by_cases hk : k = key
      · subst hk
        rw [if_neg hnotMem, if_pos List.mem_cons_self, hfield, Option.getD_some,
          Function.update_self]
      · simp only [hothers k hk, Function.update_of_ne hk]

/-- **The round trip.**  The variables are recovered, and no field defines another key, exactly if
every field survives; missing fields can be told from empty ones exactly if no field is empty. -/
theorem roundTrips_iff (m : SimplerDispatchManifest) :
    (m.RoundTrips ↔ m.Clean) ∧
    (m.RoundTrips ∧ m.PresenceShows ↔ m.Clean ∧ ∀ key, m.field key ≠ some "") := by
  have hround : m.RoundTrips ↔ m.Clean := by
    refine ⟨fun h => readPairs_write_iff.1 h.apart, fun hclean => ?_⟩
    have hentries := readPairs_write_iff.2 hclean
    refine ⟨?_, hentries⟩
    rw [readManifest, hentries]
    refine (foldlM_assignVariable ManifestKey.nodup_all _).trans
      (congrArg some (funext fun k => ?_))
    rw [if_pos k.mem_all]
    rfl
  refine ⟨hround, and_congr hround (forall_congr' fun key => ?_)⟩
  unfold texts
  cases m.field key with
  | none => simp
  | some value => simp

/-- A dispatch of `relu` whose hint has a second line. -/
def twoLineHint : SimplerDispatchManifest :=
  let spec : DispatchBackendSpec :=
    { profile := .hostVector
      platform := "a2a3sim"
      runtimeVariant := .hostBuildGraph
      callableHint := some "relu\nPROFILE=host_matmul" }
  simplerDispatchManifest 1
    { opId := 1
      kind := .dispatch
      backendSpec := some spec
      task := { logicalSystem := ⟨1⟩, coord := ⟨.replicate 8 0⟩, scopeDepth := 0, taskId := 1 }
      functionName := some "relu"
      targetLevel := some .l2
      targetNode := some 0
      inputSegmentCount := 1
      state := .issued
      submittedAt := 0
      issuedAt := some 0
      readyAt := 1
      timeoutAt := 1
      attempts := 1 } (some spec)

/-- The second line of the hint is read as the profile. -/
theorem not_roundTrips_twoLineHint :
    twoLineHint.field .profile = some "host_vector" ∧
    (readManifest (writeSimplerDispatchManifest twoLineHint)).map (· .profile) =
      some "host_matmul" ∧ ¬ twoLineHint.RoundTrips := by
  have hread : (readManifest (writeSimplerDispatchManifest twoLineHint)).map (· .profile) =
      some "host_matmul" := by decide +kernel
  refine ⟨rfl, hread, fun hround => ?_⟩
  rw [hround.recovered] at hread
  exact absurd hread (by decide)

end SimplerDispatchManifest

end LinquUb
