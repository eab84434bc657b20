import Jitsu.Destination.Layout
import Jitsu.Lib.Checked

namespace Jitsu.Destination

open Lib Ingest Engine

structure Transfer where
  source : Option Json
  omitted : List String

structure Container where
  holder : String
  overlays : List Transfer
  omitted : List String
  moved : List String
  groupId : Option Json
  plain : holder ≠ "__proto__" := by decide
  apart : holder ≠ "group_id" := by decide
  unhinted : ¬ hasPrefix holder sqlTypePrefix := by decide
  snake : idToSnakeCaseFast holder = holder := by decide +kernel

variable (js : Engine) (keep : Bool) (context : Option Json)

def Container.start (c : Container) : Fields := if c.overlays.isEmpty then [] else [(c.holder,.obj [])]

def Container.fill (c : Container) : Except String Json := do
  let copied ← transferFunc js keep (.obj c.start) context c.omitted
  let known ← c.overlays.foldlM (fun target t => js.within target c.holder
    (fun inner => transferFunc js keep inner t.source t.omitted)) copied
  transferValueFunc js keep known "group_id" c.groupId

def movedTraits : List String :=
  match property context "traits" with
  | some (.obj _) | some (.arr _) => ["traits"]
  | _ => []

def movedGroupId : List String := if js.truthy (property context "groupId") then ["groupId"] else []

structure Plan where
  container : Option Container
  users : List Transfer
  omitted : List String
  omits : "context" ∈ omitted ↔ container.isSome := by
    simp [JitsuInternalProperties,TableNameParameter,UserRecognitionParameter]

variable (event : Fields)

namespace Plan

variable (p : Plan)

def hold : Except String Fields :=
  match p.container with
  | none => .ok []
  | some c => do
    let filled ← c.fill js keep (Fields.get event "context")
    .ok [("context",filled)]

def describe (held : Fields) : Except String Json := do
  let described ← p.users.foldlM (fun row t => transferFunc js keep row t.source t.omitted) (.obj held)
  transferFunc js keep described (some (.obj event)) p.omitted

def build : Except String Json := do
  let held ← p.hold js keep event
  p.describe js keep event held

end Plan

def identifySingleTablePlan : Plan where
  container := some {
    holder := "traits"
    overlays := [⟨property (Fields.get event "context") "traits",["groupId"]⟩,
      ⟨Fields.get event "traits",["groupId"]⟩]
    omitted := ["groupId","traits"]
    moved := movedGroupId js (Fields.get event "context") ++ movedTraits (Fields.get event "context")
    groupId := js.or (property (Fields.get event "context") "groupId")
      (js.or (property (Fields.get event "traits") "groupId")
        (property (property (Fields.get event "context") "traits") "groupId")) }
  users := [⟨Fields.get event "properties",[]⟩]
  omitted := ["context","properties","traits","type"] ++ JitsuInternalProperties

def identifyTablePlan : Plan where
  container := some {
    holder := "traits"
    overlays := []
    omitted := ["traits"]
    moved := movedTraits (Fields.get event "context")
    groupId := none }
  users := [⟨Fields.get event "properties",[]⟩,⟨property (Fields.get event "context") "traits",[]⟩,
    ⟨Fields.get event "traits",[]⟩]
  omitted := ["context","properties","traits","type"] ++ JitsuInternalProperties

def groupSingleTablePlan : Plan where
  container := some {
    holder := "group"
    overlays := [⟨Fields.get event "traits",[]⟩]
    omitted := []
    moved := []
    groupId := Fields.get event "groupId" }
  users := [⟨Fields.get event "properties",[]⟩]
  omitted := ["context","properties","traits","type","groupId"] ++ JitsuInternalProperties

def groupTablePlan : Plan where
  container := some {
    holder := "traits"
    overlays := []
    omitted := ["traits"]
    moved := []
    groupId := none }
  users := [⟨Fields.get event "properties",[]⟩,⟨Fields.get event "traits",[]⟩]
  omitted := ["context","properties","traits","type"] ++ JitsuInternalProperties

def trackSingleTablePlan : Plan where
  container := some {
    holder := "traits"
    overlays := [⟨property (Fields.get event "context") "traits",["groupId"]⟩,
      ⟨property (Fields.get event "properties") "traits",["groupId"]⟩]
    omitted := ["groupId","traits"]
    moved := movedGroupId js (Fields.get event "context") ++ movedTraits (Fields.get event "context")
    groupId := js.or (property (Fields.get event "context") "groupId")
      (property (property (Fields.get event "context") "traits") "groupId") }
  users := [⟨Fields.get event "properties",["traits"]⟩]
  omitted := ["context","properties","type"] ++ JitsuInternalProperties

def trackTablePlan : Plan where
  container := none
  users := [⟨Fields.get event "properties",[]⟩]
  omitted := ["properties","type"] ++ JitsuInternalProperties

def otherSingleTablePlan : Plan where
  container := some {
    holder := "traits"
    overlays := [⟨property (Fields.get event "context") "traits",["groupId"]⟩]
    omitted := ["groupId","traits"]
    moved := movedGroupId js (Fields.get event "context") ++ movedTraits (Fields.get event "context")
    groupId := js.or (property (Fields.get event "context") "groupId")
      (property (property (Fields.get event "context") "traits") "groupId") }
  users := [⟨Fields.get event "properties",[]⟩]
  omitted := ["context","properties"] ++ JitsuInternalProperties

def otherTablePlan : Plan where
  container := none
  users := [⟨Fields.get event "properties",[]⟩]
  omitted := ["properties"] ++ JitsuInternalProperties

def layoutPlan (singleTable : Bool) : Plan :=
  match Fields.get event "type",singleTable with
  | some (.str "identify"),true => identifySingleTablePlan js event
  | some (.str "identify"),false => identifyTablePlan event
  | some (.str "group"),true => groupSingleTablePlan event
  | some (.str "group"),false => groupTablePlan event
  | some (.str "track"),true => trackSingleTablePlan js event
  | some (.str "track"),false => trackTablePlan event
  | _,true => otherSingleTablePlan js event
  | _,false => otherTablePlan event

theorem transferValueFunc_none (target : Json) (name : String) :
    transferValueFunc js keep target name none = .ok target := by
  cases keep <;> rfl

theorem transformed_eq (singleTable : Bool) :
    transformed js singleTable keep event = (layoutPlan js event singleTable).build js keep event := by
  unfold transformed layoutPlan
  generalize Fields.get event "type" = type
  split
  · simp [identifySingleTable,identifySingleTablePlan,Plan.build,Plan.hold,Plan.describe,Container.fill,
    Container.start]
  · simp [identifyTable,identifyTablePlan,Plan.build,Plan.hold,Plan.describe,Container.fill,Container.start,
    transferValueFunc_none]
  · simp [groupSingleTable,groupSingleTablePlan,Plan.build,Plan.hold,Plan.describe,Container.fill,
    Container.start]
  · simp [groupTable,groupTablePlan,Plan.build,Plan.hold,Plan.describe,Container.fill,Container.start,
    transferValueFunc_none]
  · simp [trackSingleTable,trackSingleTablePlan,Plan.build,Plan.hold,Plan.describe,Container.fill,
    Container.start]
  · simp [trackTable,trackTablePlan,Plan.build,Plan.hold,Plan.describe]
  · simp [otherSingleTable,otherSingleTablePlan,Plan.build,Plan.hold,Plan.describe,Container.fill,
    Container.start]
  · simp [otherTable,otherTablePlan,Plan.build,Plan.hold,Plan.describe]

end Jitsu.Destination
