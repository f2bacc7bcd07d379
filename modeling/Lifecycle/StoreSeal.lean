import Lifecycle.StoreInvariants

/-!
# The seal of a store

A sealed store is final: no call of any handle changes a row of it
(`shared_of_sealed`), its journal ends with the closure it binds, nothing is
pending or live, and its inventory digest is the one its rows have, then and
ever after (`sealed_final`).
-/

open Fallible Json ControlModel ControlStore Transactions

variable {profiles : String → Schema} {κ : Type} [DecidableEq κ]
  {identity : ControlRecordStoreIdentity}
  {s t : ClientState κ StoreCall ControlDatabase (Option StoreHandle) StoreWork StoreFailure}

/-! ## A sealed store -/

/-- **No call changes a sealed store.** -/
theorem CallOutcome.of_sealed {w w' : StoreWork} {call : StoreCall} (h : CallOutcome w w' call)
    (hsettled : Settled w.db) (hsealed : w.db.storeSeal ≠ none) : w'.db = w.db := by
  by_cases hcall : call.seals
  · cases h with
    | sealStore hstore =>
      -- The seal is the one row of its table.
      obtain ⟨_, -, -, houtcome⟩ := sealStore_outcome hstore
      exact absurd houtcome.unsealed hsealed
    | _ => exact hcall.elim
  · exact (h.writes hcall).of_sealed hsettled hsealed

/-- No step changes a sealed store. -/
theorem shared_of_sealed {l : ClientStep κ StoreCall}
    (hs : (storeSystem profiles κ identity).Reachable s) (hsealed : s.shared.storeSeal ≠ none)
    (hstep : (storeSystem profiles κ identity).step s l t) : t.shared = s.shared := by
  rcases atomic_of_step (Follows.of_reachable hs) hstep with ⟨k, call, rfl, hcall⟩ | ⟨-, hsame⟩
  · obtain ⟨w, w', hdb, -, -, houtcome, hshared, -⟩ := call_outcome hcall
    rw [hshared, ← hdb]
    exact houtcome.of_sealed (hdb ▸ (storeInvariant hs).settled) (hdb ▸ hsealed)
  · exact hsame

/-- **What a sealed store is.** -/
structure SealedStore (db : ControlDatabase) (value : ControlRecordStoreSeal) : Prop where
  sealed : Sealed db value
  pending : db.pending = none
  stopRequest : db.stopRequest = none
  support : db.support.values = []
