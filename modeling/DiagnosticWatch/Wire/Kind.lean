/-
# Kinds of frames

The debug server numbers its frame kinds from 0 in a fixed order; the number
is the type byte of a frame. The watcher acts on three of them and knows the
others by name.

Key definitions: `Kind`, `Kind.code`, `Kind.ofCode?`, `Kind.name`.
Key theorems: `Kind.ofCode?_code`, `Kind.code_of_ofCode?`.
-/

namespace DiagnosticWatch

/-- What a frame is about. -/
inductive Kind where
  | diagnostics
  | requestDebugDatabase
  | debugDatabase
  | startDebugging
  | stopDebugging
  | pause
  | resume
  | requestCallStack
  | callStack
  | clearBreakpoints
  | setBreakpoint
  | hasStopped
  | hasContinued
  | stepOver
  | stepIn
  | stepOut
  | engineBreak
  | requestVariables
  | frameVariables
  | requestEvaluate
  | evaluate
  | goToDefinition
  | breakOptions
  | requestBreakFilters
  | breakFilters
  | disconnect
  | debugDatabaseFinished
  | assetDatabaseInit
  | assetDatabase
  | assetDatabaseFinished
  | findAssets
  | debugDatabaseSettings
  | pingAlive
  | debugServerVersion
  | createBlueprint
  | replaceAssetDefinition
  | setDataBreakpoints
  | clearDataBreakpoints
deriving Repr, DecidableEq, Inhabited

namespace Kind

/-- Every kind with its name, in the order of the codes. -/
def catalog : List (Kind × String) :=
  [(diagnostics, "DIAGNOSTICS"), (requestDebugDatabase, "REQUEST_DEBUG_DATABASE"),
    (debugDatabase, "DEBUG_DATABASE"), (startDebugging, "START_DEBUGGING"),
    (stopDebugging, "STOP_DEBUGGING"), (pause, "PAUSE"), (resume, "CONTINUE"),
    (requestCallStack, "REQUEST_CALL_STACK"), (callStack, "CALL_STACK"),
    (clearBreakpoints, "CLEAR_BREAKPOINTS"), (setBreakpoint, "SET_BREAKPOINT"),
    (hasStopped, "HAS_STOPPED"), (hasContinued, "HAS_CONTINUED"), (stepOver, "STEP_OVER"),
    (stepIn, "STEP_IN"), (stepOut, "STEP_OUT"), (engineBreak, "ENGINE_BREAK"),
    (requestVariables, "REQUEST_VARIABLES"), (frameVariables, "VARIABLES"),
    (requestEvaluate, "REQUEST_EVALUATE"), (evaluate, "EVALUATE"),
    (goToDefinition, "GO_TO_DEFINITION"), (breakOptions, "BREAK_OPTIONS"),
    (requestBreakFilters, "REQUEST_BREAK_FILTERS"), (breakFilters, "BREAK_FILTERS"),
    (disconnect, "DISCONNECT"), (debugDatabaseFinished, "DEBUG_DATABASE_FINISHED"),
    (assetDatabaseInit, "ASSET_DATABASE_INIT"), (assetDatabase, "ASSET_DATABASE"),
    (assetDatabaseFinished, "ASSET_DATABASE_FINISHED"), (findAssets, "FIND_ASSETS"),
    (debugDatabaseSettings, "DEBUG_DATABASE_SETTINGS"), (pingAlive, "PING_ALIVE"),
    (debugServerVersion, "DEBUG_SERVER_VERSION"), (createBlueprint, "CREATE_BLUEPRINT"),
    (replaceAssetDefinition, "REPLACE_ASSET_DEFINITION"),
    (setDataBreakpoints, "SET_DATA_BREAKPOINTS"), (clearDataBreakpoints, "CLEAR_DATA_BREAKPOINTS")]

/-- The number of a kind: its place in the catalog. -/
def code (kind : Kind) : Nat :=
  (catalog.map Prod.fst).idxOf kind

/-- The name of a kind. -/
def name (kind : Kind) : String :=
  (catalog.lookup kind).getD ""

/-- The kind of a number, if it is in the catalog. -/
def ofCode? (value : Int) : Option Kind :=
  if value < 0 then none else catalog[value.toNat]?.map Prod.fst

theorem code_lt (kind : Kind) : kind.code < 38 := by
  cases kind <;> decide

/-- A kind is found under its own number. -/
theorem ofCode?_code (kind : Kind) : ofCode? kind.code = some kind := by
  cases kind <;> decide

/-- A kind is found under no other number. -/
theorem code_of_ofCode? {value : Int} {kind : Kind} (h : ofCode? value = some kind) :
    (kind.code : Int) = value := by
  unfold ofCode? at h
  split at h
  · simp at h
  · have small : value.toNat < 38 := by
      by_cases big : value.toNat < 38
      · exact big
      · have none : catalog[value.toNat]? = none :=
          List.getElem?_eq_none (Nat.le_of_not_lt big)
        simp [none] at h
    have table : ∀ n < 38, ∀ k, catalog[n]?.map Prod.fst = some k → k.code = n := by
      decide +revert
    have := table _ small kind h
    omega

end Kind
end DiagnosticWatch
