import ZkCppClient.Ops.Env

/-!
# Synchronous recursive deletion

`deleteRecursive` recurses on the answers of the server, which other clients
can keep changing, so its recursion is on a fuel: `none` means that the call
has not returned within it. What it returns does not depend on the fuel.
-/

namespace ZkCppClient.Ops

variable {σ : Type*} (E : Env σ)

/-- The loop over `childNodes`; `false` when it is left at a failed deletion. -/
def deleteChildren (del : σ → String → Option (ZkErrorCode × σ)) (path : String) :
    List String → σ → Option (Bool × σ)
  | [], s => some (true, s)
  | name :: childNodes, s =>
    match del s (path ++ "/" ++ name) with
    | none => none
    | some (ec1, s) =>
      if ec1 ≠ .kZKSucceed ∧ ec1 ≠ .kZKNotExist then some (false, s)
      else deleteChildren del path childNodes s

def deleteRecursive : Nat → σ → String → Int32 → Option (ZkErrorCode × σ)
  | 0, _, _, _ => none
  | fuel + 1, s, path, version =>
    match getChildren E s path with
    | (.kZKNotExist, _, s) => some (.kZKSucceed, s)
    | (.kZKSucceed, childNodes, s) =>
      match deleteChildren (fun s p => deleteRecursive fuel s p (-1)) path childNodes s with
      | none => none
      | some (false, s) => some (.kZKError, s)
      | some (true, s) => some (deleteNode E s path version)
    | (_, _, s) => some (.kZKError, s)

theorem deleteChildren_mono {del del' : σ → String → Option (ZkErrorCode × σ)}
    (hdel : ∀ s p r, del s p = some r → del' s p = some r) (path : String) :
    ∀ (childNodes : List String) (s : σ) (r : Bool × σ),
      deleteChildren del path childNodes s = some r → deleteChildren del' path childNodes s = some r
  | [], _, _, h => h
  | name :: childNodes, s, r, h => by
    simp only [deleteChildren] at h ⊢
    cases hd : del s (path ++ "/" ++ name) with
    | none => rw [hd] at h; cases h
    | some q =>
      rw [hd] at h
      rw [hdel _ _ _ hd]
      dsimp only at h ⊢
      split
      · rename_i hf; rw [if_pos hf] at h; exact h
      · rename_i hf; rw [if_neg hf] at h; exact deleteChildren_mono hdel path childNodes _ r h

theorem deleteRecursive_succ : ∀ (fuel : Nat) (s : σ) (path : String) (version : Int32) (r : ZkErrorCode × σ),
    deleteRecursive E fuel s path version = some r → deleteRecursive E (fuel + 1) s path version = some r
  | 0, _, _, _, _, h => by cases h
  | fuel + 1, s, path, version, r, h => by
    have ih := fun s p r => deleteRecursive_succ fuel s p (-1) r
    rw [deleteRecursive] at h ⊢
    split at h
    · exact h
    · rename_i childNodes s' _
      cases hc : deleteChildren (fun s p => deleteRecursive E fuel s p (-1)) path childNodes s' with
      | none => rw [hc] at h; cases h
      | some q => rw [hc] at h; rw [deleteChildren_mono ih path childNodes s' q hc]; exact h
    · exact h

theorem deleteRecursive_mono {fuel fuel' : Nat} (hle : fuel ≤ fuel') {s : σ} {path : String} {version : Int32}
    {r : ZkErrorCode × σ} (h : deleteRecursive E fuel s path version = some r) :
    deleteRecursive E fuel' s path version = some r := by
  induction hle with
  | refl => exact h
  | step _ ih => exact deleteRecursive_succ E _ s path version r ih

theorem deleteChildren_unique {fuel fuel' : Nat} {path : String} {childNodes : List String} {s : σ}
    {r r' : Bool × σ}
    (h : deleteChildren (fun s p => deleteRecursive E fuel s p (-1)) path childNodes s = some r)
    (h' : deleteChildren (fun s p => deleteRecursive E fuel' s p (-1)) path childNodes s = some r') : r = r' := by
  have hm := deleteChildren_mono (fun _ _ _ => deleteRecursive_mono E (Nat.le_max_left fuel fuel')) path _ _ _ h
  have hm' := deleteChildren_mono (fun _ _ _ => deleteRecursive_mono E (Nat.le_max_right fuel fuel')) path _ _ _ h'
  exact Option.some.inj (hm.symm.trans hm')

end ZkCppClient.Ops
