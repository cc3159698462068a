import ReliableDelivery.Support.Redis
import Mathlib.Data.Set.Image

/-!
# The keys a script touches

A script touches only certain keys if its result depends on what they hold and on
nothing else, and if it writes no other key.  A command has one key; a script is put
together from its commands, and which keys it goes on with may depend on what it has
read.
-/

namespace Redis

open Decimal

namespace Script

/-- Started on `db`, the script reads and writes only `keys`. -/
def TouchesOnly {α : Type} (keys : Set Bytes) (p : Script α) (db : Db) : Prop :=
  ∀ db' : Db, (∀ k ∈ keys, db' k = db k) →
    (p.run db').1 = (p.run db).1 ∧
      (∀ k ∈ keys, (p.run db').2 k = (p.run db).2 k) ∧
      ∀ k, k ∉ keys → (p.run db').2 k = db' k

/-- A script that works on a single key, on every database. -/
structure AtKey {α : Type} (key : Bytes) (p : Script α) : Prop where
  same : ∀ db db' : Db, db' key = db key →
    (p.run db').1 = (p.run db).1 ∧ (p.run db').2 key = (p.run db).2 key
  frame : ∀ (db : Db) k, k ≠ key → (p.run db).2 k = db k

variable {α β : Type} {keys : Set Bytes} {db : Db}

theorem touchesOnly_pure (a : α) : (Pure.pure a : Script α).TouchesOnly keys db :=
  fun _ h => ⟨rfl, h, fun _ _ => rfl⟩

theorem touchesOnly_fail (e : Error) : (fail e : Script α).TouchesOnly keys db :=
  fun _ h => ⟨rfl, h, fun _ _ => rfl⟩

theorem TouchesOnly.bind {p : Script α} {f : α → Script β}
    (hp : p.TouchesOnly keys db)
    (hf : ∀ a db₁, p.run db = (.ok a, db₁) → (f a).TouchesOnly keys db₁) :
    (p >>= f).TouchesOnly keys db := by
  intro db' hdb'
  obtain ⟨hresult, hkeys, hframe⟩ := hp db' hdb'
  rcases hrun : p.run db with ⟨result, db₁⟩
  rcases hrun' : p.run db' with ⟨result', db₁'⟩
  rw [hrun, hrun'] at hresult hkeys
  rw [hrun'] at hframe
  dsimp only at hresult hkeys hframe
  subst hresult
  cases result' with
  | error e =>
      rw [bind_error hrun, bind_error hrun']
      exact ⟨rfl, hkeys, hframe⟩
  | ok a =>
      rw [bind_ok hrun, bind_ok hrun']
      obtain ⟨hresult, hafter, hrest⟩ := hf a db₁ hrun db₁' hkeys
      exact ⟨hresult, hafter, fun k hk => (hrest k hk).trans (hframe k hk)⟩

/-- The rest does not depend on what has been read. -/
theorem TouchesOnly.andThen {p : Script α} {f : α → Script β}
    (hp : p.TouchesOnly keys db) (hf : ∀ a db₁, (f a).TouchesOnly keys db₁) :
    (p >>= f).TouchesOnly keys db :=
  hp.bind fun a db₁ _ => hf a db₁

theorem AtKey.touchesOnly {key : Bytes} {p : Script α} (h : AtKey key p)
    (hkey : key ∈ keys) : p.TouchesOnly keys db := by
  intro db' hdb'
  obtain ⟨hresult, hvalue⟩ := h.same db db' (hdb' key hkey)
  refine ⟨hresult, fun k hk => ?_, fun k hk => ?_⟩
  · by_cases heq : k = key
    · rw [heq]
      exact hvalue
    · rw [h.frame db' k heq, h.frame db k heq, hdb' k hk]
  · refine h.frame db' k ?_
    rintro rfl
    exact hk hkey

end Script

/-! ## Commands -/

section Commands

open Script

variable (key : Bytes)

theorem atKey_exists : AtKey key (exists? key) where
  same db db' h := by
    simp only [exists?, h]
    exact ⟨trivial, trivial⟩
  frame db k _ := rfl

theorem atKey_get : AtKey key (get key) where
  same db db' h := by
    simp only [get, h]
    cases stringAt (db key) with
    | none => exact ⟨rfl, h⟩
    | some text => exact ⟨rfl, h⟩
  frame db k hk := by
    simp only [get]
    cases stringAt (db key) with
    | none => rfl
    | some text => rfl

/-- Reading leaves the database as it is. -/
theorem get_db (db : Db) : ((get key).run db).2 = db := by
  simp only [get]
  cases stringAt (db key) with
  | none => rfl
  | some text => rfl

theorem atKey_set (text : Bytes) : AtKey key (set key text) where
  same db db' h := by simp [set]
  frame db k hk := Function.update_of_ne hk _ _

theorem atKey_incr : AtKey key (incr key) where
  same db db' h := by
    simp only [incr, h]
    cases stringAt (db key) with
    | none => exact ⟨rfl, h⟩
    | some text =>
        dsimp only
        cases parseInteger (text.getD (render 0)) with
        | none => exact ⟨rfl, h⟩
        | some n =>
            dsimp only
            split
            · simp
            · exact ⟨rfl, h⟩
  frame db k hk := by
    simp only [incr]
    cases stringAt (db key) with
    | none => rfl
    | some text =>
        dsimp only
        cases parseInteger (text.getD (render 0)) with
        | none => rfl
        | some n =>
            dsimp only
            split
            · exact Function.update_of_ne hk _ _
            · rfl

theorem atKey_hset (updates : List (Bytes × Bytes)) :
    AtKey key (hset key updates) where
  same db db' h := by
    simp only [hset, h]
    cases hashAt (db key) with
    | none => exact ⟨rfl, h⟩
    | some fields => simp
  frame db k hk := by
    simp only [hset]
    cases hashAt (db key) with
    | none => rfl
    | some fields => exact Function.update_of_ne hk _ _

theorem atKey_hget (field : Bytes) : AtKey key (hget key field) where
  same db db' h := by
    simp only [hget, h]
    cases hashAt (db key) with
    | none => exact ⟨rfl, h⟩
    | some fields => exact ⟨rfl, h⟩
  frame db k hk := by
    simp only [hget]
    cases hashAt (db key) with
    | none => rfl
    | some fields => rfl

theorem atKey_hmget (names : List Bytes) : AtKey key (hmget key names) where
  same db db' h := by
    simp only [hmget, h]
    cases hashAt (db key) with
    | none => exact ⟨rfl, h⟩
    | some fields => exact ⟨rfl, h⟩
  frame db k hk := by
    simp only [hmget]
    cases hashAt (db key) with
    | none => rfl
    | some fields => rfl

theorem atKey_hincrby (field : Bytes) (delta : ℤ) :
    AtKey key (hincrby key field delta) where
  same db db' h := by
    simp only [hincrby, h]
    cases hashAt (db key) with
    | none => exact ⟨rfl, h⟩
    | some fields =>
        dsimp only
        cases parseInteger ((fields field).getD (render 0)) with
        | none => exact ⟨rfl, h⟩
        | some n =>
            dsimp only
            split
            · simp
            · exact ⟨rfl, h⟩
  frame db k hk := by
    simp only [hincrby]
    cases hashAt (db key) with
    | none => rfl
    | some fields =>
        dsimp only
        cases parseInteger ((fields field).getD (render 0)) with
        | none => rfl
        | some n =>
            dsimp only
            split
            · exact Function.update_of_ne hk _ _
            · rfl

theorem atKey_zadd (score member : Bytes) : AtKey key (zadd key score member) where
  same db db' h := by
    simp only [zadd, h]
    cases parseNatural score with
    | none => exact ⟨rfl, h⟩
    | some n =>
        dsimp only
        cases zsetAt (db key) with
        | none => exact ⟨rfl, h⟩
        | some set => simp
  frame db k hk := by
    simp only [zadd]
    cases parseNatural score with
    | none => rfl
    | some n =>
        dsimp only
        cases zsetAt (db key) with
        | none => rfl
        | some set => exact Function.update_of_ne hk _ _

theorem atKey_zrem (member : Bytes) : AtKey key (zrem key member) where
  same db db' h := by
    simp only [zrem, h]
    cases zsetAt (db key) with
    | none => exact ⟨rfl, h⟩
    | some set => simp
  frame db k hk := by
    simp only [zrem]
    cases zsetAt (db key) with
    | none => rfl
    | some set => exact Function.update_of_ne hk _ _

theorem atKey_zentries : AtKey key (zentries key) where
  same db db' h := by
    simp only [zentries, h]
    cases zsetAt (db key) with
    | none => exact ⟨rfl, h⟩
    | some set => exact ⟨rfl, h⟩
  frame db k hk := by
    simp only [zentries]
    cases zsetAt (db key) with
    | none => rfl
    | some set => rfl

end Commands

end Redis
