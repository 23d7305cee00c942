import ETraceGen.Lib.KeyedMap
import ETraceGen.Lib.Positions
import Mathlib.Data.List.Forall2

/-!
# Correlating entries with exits

A correlation table keeps, for each key, the payload captured when an operation was entered, until
the exit of that operation consumes it. It never overwrites a stored payload (a second entry is a
collision), it consumes a payload at the first exit, and it may lose anything on the way: an entry
may find no room to build or to store its payload, an exit may find no room for its output, and a
stored payload may be evicted.

* `Op` : what one action of a client asks of the table; `Table.apply` : what the table does;
* `Client` : a transition system with a table in its state; `Client.history` : what a run leaves
  behind that no step reads; `tally` : how often something happens along a run;
* `Client.balanced` : every entry and every exit is accounted for;
* `Client.origins_nodup` : a stored payload is consumed at most once;
* `Client.stored` : a stored payload has been there since its entry;
* `Client.lookup_iff` : exactly which entry a stored payload is from;
* `Client.leftover_iff` : exactly when a stored payload is left over;
* `Client.last_entry_of_not_leftover` : an exit that does not find a payload left over from before
  its own entry finds the payload of its own entry.
-/

namespace ETraceGen.Pairing

variable {K P R S A : Type}

/-- What one action asks of the table. -/
inductive Op (K P R : Type) where
  /-- nothing -/
  | idle
  /-- an operation is entered and the table is not told -/
  | skipEnter (k : K)
  /-- an operation exits and the table is not told -/
  | skipExit (k : K)
  /-- an operation is entered and its payload cannot be built -/
  | refuse (k : K)
  /-- an operation is entered with payload `p`; `room` says whether a store would succeed -/
  | enter (k : K) (p : P) (room : Bool)
  /-- an operation exits; `room` says whether there is room for the output `finish p` -/
  | exit (k : K) (finish : P → R) (room : Bool)
  /-- the payload of `k` is dropped -/
  | evict (k : K)

/-- The key an operation is about. -/
def Op.key? : Op K P R → Option K
  | .idle => none
  | .skipEnter k | .skipExit k | .refuse k | .enter k _ _ | .exit k _ _ | .evict k => some k

/-- An operation of key `k` is entered, whether or not the table is told. -/
def Op.entersKey (k : K) : Op K P R → Prop
  | .skipEnter k' | .refuse k' | .enter k' _ _ => k' = k
  | _ => False

/-- Whatever is stored under `k` is taken out. -/
def Op.removesKey (k : K) : Op K P R → Prop
  | .exit k' _ _ | .evict k' => k' = k
  | _ => False

/-! ## The table -/

/-- The stored payloads, the outputs in order, and a counter for each way an entry or an exit can
be turned away. -/
structure Table (K P R : Type) where
  pending : KeyedMap K P := ∅
  out : List R := []
  collisions : Nat := 0
  saveFails : Nat := 0
  misses : Nat := 0

variable [DecidableEq K]

namespace Table

def enter (t : Table K P R) (k : K) (p : P) (room : Bool) : Table K P R :=
  if (t.pending.lookup k).isSome then { t with collisions := t.collisions + 1 }
  else if room then { t with pending := t.pending.insert k p }
  else { t with saveFails := t.saveFails + 1 }

def exit (t : Table K P R) (k : K) (finish : P → R) (room : Bool) : Table K P R :=
  match t.pending.lookup k with
  | none => { t with misses := t.misses + 1 }
  | some p =>
    if room then { t with out := t.out ++ [finish p], pending := t.pending.erase k }
    else { t with pending := t.pending.erase k }

def evict (t : Table K P R) (k : K) : Table K P R := { t with pending := t.pending.erase k }

def apply (t : Table K P R) : Op K P R → Table K P R
  | .idle | .skipEnter _ | .skipExit _ | .refuse _ => t
  | .enter k p room => t.enter k p room
  | .exit k finish room => t.exit k finish room
  | .evict k => t.evict k

theorem apply_enter_of_some {t : Table K P R} {k : K} {q : P} (p : P) (room : Bool)
    (h : t.pending.lookup k = some q) :
    t.apply (.enter k p room) = { t with collisions := t.collisions + 1 } := by
  simp [apply, enter, h]

theorem apply_enter_of_none {t : Table K P R} {k : K} (p : P) (h : t.pending.lookup k = none) :
    t.apply (.enter k p true) = { t with pending := t.pending.insert k p } := by
  simp [apply, enter, h]

theorem apply_enter_of_full {t : Table K P R} {k : K} (p : P) (h : t.pending.lookup k = none) :
    t.apply (.enter k p false) = { t with saveFails := t.saveFails + 1 } := by
  simp [apply, enter, h]

theorem apply_exit_of_none {t : Table K P R} {k : K} (finish : P → R) (room : Bool)
    (h : t.pending.lookup k = none) :
    t.apply (.exit k finish room) = { t with misses := t.misses + 1 } := by
  simp [apply, exit, h]

theorem apply_exit_of_some {t : Table K P R} {k : K} {p : P} (finish : P → R)
    (h : t.pending.lookup k = some p) : t.apply (.exit k finish true) =
      { t with out := t.out ++ [finish p], pending := t.pending.erase k } := by
  simp [apply, exit, h]

theorem apply_exit_of_full {t : Table K P R} {k : K} {p : P} (finish : P → R)
    (h : t.pending.lookup k = some p) :
    t.apply (.exit k finish false) = { t with pending := t.pending.erase k } := by
  simp [apply, exit, h]

/-- An operation leaves the payloads of the other keys alone. -/
theorem lookup_apply_of_ne (t : Table K P R) {o : Op K P R} {k : K} (h : o.key? ≠ some k) :
    (t.apply o).pending.lookup k = t.pending.lookup k := by
  cases o with
  | idle => rfl
  | skipEnter k₀ => rfl
  | skipExit k₀ => rfl
  | refuse k₀ => rfl
  | enter k₀ p room =>
    have hne : k ≠ k₀ := fun he => h (by rw [he]; rfl)
    simp only [apply, enter]
    split_ifs <;> simp only [AList.lookup_insert_ne hne]
  | exit k₀ finish room =>
    have hne : k ≠ k₀ := fun he => h (by rw [he]; rfl)
    simp only [apply, exit]
    split
    · rfl
    · split_ifs <;> simp only [AList.lookup_erase_ne hne]
  | evict k₀ =>
    have hne : k ≠ k₀ := fun he => h (by rw [he]; rfl)
    exact AList.lookup_erase_ne hne

theorem lookup_apply_exit (t : Table K P R) (k : K) (finish : P → R) (room : Bool) :
    (t.apply (.exit k finish room)).pending.lookup k = none := by
  simp only [apply, exit]
  split
  · assumption
  · split_ifs <;> exact AList.lookup_erase _ _

theorem lookup_apply_evict (t : Table K P R) (k : K) :
    (t.apply (.evict k)).pending.lookup k = none :=
  AList.lookup_erase _ _

theorem lookup_apply_of_removes (t : Table K P R) {o : Op K P R} {k : K} (h : o.removesKey k) :
    (t.apply o).pending.lookup k = none := by
  cases o with
  | exit k₀ finish room =>
    obtain rfl : k₀ = k := h
    exact lookup_apply_exit t k₀ finish room
  | evict k₀ =>
    obtain rfl : k₀ = k := h
    exact lookup_apply_evict t k₀
  | _ => exact h.elim

/-- A stored payload stays until an operation takes it out: a second entry does not overwrite it. -/
theorem lookup_apply_of_stored {t : Table K P R} {o : Op K P R} {k : K} {p : P}
    (h : t.pending.lookup k = some p) (ho : ¬ o.removesKey k) :
    (t.apply o).pending.lookup k = some p := by
  by_cases hkey : o.key? = some k
  · cases o with
    | enter k₀ p₀ room =>
      obtain rfl : k₀ = k := by simpa [Op.key?] using hkey
      rwa [apply_enter_of_some p₀ room h]
    | exit k₀ finish room => exact absurd (Option.some.inj hkey) ho
    | evict k₀ => exact absurd (Option.some.inj hkey) ho
    | _ => exact h
  · rwa [lookup_apply_of_ne t hkey]

/-- Nothing comes to be stored under a key without an entry of it. -/
theorem lookup_apply_of_none {t : Table K P R} {o : Op K P R} {k : K}
    (h : t.pending.lookup k = none) (ho : ∀ p, o ≠ .enter k p true) :
    (t.apply o).pending.lookup k = none := by
  by_cases hkey : o.key? = some k
  · cases o with
    | enter k₀ p₀ room =>
      obtain rfl : k₀ = k := by simpa [Op.key?] using hkey
      cases room with
      | true => exact absurd rfl (ho p₀)
      | false => rwa [apply_enter_of_full p₀ h]
    | exit k₀ finish room => exact lookup_apply_of_removes t (Option.some.inj hkey)
    | evict k₀ => exact lookup_apply_of_removes t (Option.some.inj hkey)
    | _ => exact h
  · rwa [lookup_apply_of_ne t hkey]

end Table

/-- An exit that finds nothing. -/
def Op.isMiss (t : Table K P R) : Op K P R → Bool
  | .exit k _ _ => (t.pending.lookup k).isNone
  | _ => false

theorem Table.misses_apply (t : Table K P R) (o : Op K P R) :
    (t.apply o).misses = t.misses + (o.isMiss t).toNat := by
  cases o with
  | enter k p room =>
    simp only [apply, enter, Op.isMiss]
    split_ifs <;> rfl
  | exit k finish room =>
    simp only [apply, exit, Op.isMiss]
    split
    · simp [*]
    · split_ifs <;> simp [*]
  | _ => rfl

/-! ## Accounting

The operations each account counts. -/

@[simp] def Op.isEntry : Op K P R → Bool
  | .refuse _ | .enter _ _ _ => true
  | _ => false

@[simp] def Op.isExit : Op K P R → Bool
  | .exit _ _ _ => true
  | _ => false

@[simp] def Op.isRefused : Op K P R → Bool
  | .refuse _ => true
  | _ => false

@[simp] def Op.isDropped (t : Table K P R) : Op K P R → Bool
  | .exit k _ room => (t.pending.lookup k).isSome && !room
  | _ => false

@[simp] def Op.isEvicted (t : Table K P R) : Op K P R → Bool
  | .evict k => (t.pending.lookup k).isSome
  | _ => false

/-- What became of the entries and exits the table was told of, beyond its own counters. -/
structure Ledger where
  enters : Nat := 0
  exits : Nat := 0
  refused : Nat := 0
  dropped : Nat := 0
  evicted : Nat := 0

@[simp] def Ledger.record (l : Ledger) (t : Table K P R) (o : Op K P R) : Ledger where
  enters := l.enters + o.isEntry.toNat
  exits := l.exits + o.isExit.toNat
  refused := l.refused + o.isRefused.toNat
  dropped := l.dropped + (o.isDropped t).toNat
  evicted := l.evicted + (o.isEvicted t).toNat

/-- Every entry and every exit the table was told of has ended in exactly one way. -/
structure Balanced (t : Table K P R) (l : Ledger) : Prop where
  enters : l.enters = t.out.length + t.collisions + t.saveFails + l.refused + l.dropped +
    KeyedMap.size t.pending + l.evicted
  exits : l.exits = t.out.length + t.misses + l.dropped

theorem Balanced.step {t : Table K P R} {l : Ledger} (h : Balanced t l) (o : Op K P R) :
    Balanced (t.apply o) (l.record t o) := by
  obtain ⟨hin, hout⟩ := h
  cases o with
  | idle => exact ⟨hin, hout⟩
  | skipEnter k => exact ⟨hin, hout⟩
  | skipExit k => exact ⟨hin, hout⟩
  | refuse k => exact ⟨by simp [Table.apply]; omega, hout⟩
  | enter k p room =>
    cases hk : t.pending.lookup k with
    | some q =>
      rw [Table.apply_enter_of_some p room hk]
      exact ⟨by simp; omega, hout⟩
    | none =>
      cases room with
      | true =>
        rw [Table.apply_enter_of_none p hk]
        refine ⟨?_, hout⟩
        have hsize := KeyedMap.size_insert_of_notMem p (AList.lookup_eq_none.mp hk)
        simp
        omega
      | false =>
        rw [Table.apply_enter_of_full p hk]
        exact ⟨by simp; omega, hout⟩
  | exit k finish room =>
    cases hk : t.pending.lookup k with
    | none =>
      rw [Table.apply_exit_of_none finish room hk]
      constructor <;> simp [hk] <;> omega
    | some p =>
      have hsize := KeyedMap.size_erase_of_mem (KeyedMap.mem_of_lookup hk)
      cases room with
      | true =>
        rw [Table.apply_exit_of_some finish hk]
        constructor <;> simp [hk] <;> omega
      | false =>
        rw [Table.apply_exit_of_full finish hk]
        constructor <;> simp [hk] <;> omega
  | evict k =>
    cases hk : t.pending.lookup k with
    | none =>
      have hsize := KeyedMap.erase_of_notMem (AList.lookup_eq_none.mp hk)
      constructor <;> simp [Table.apply, Table.evict, hk, hsize] <;> omega
    | some p =>
      have hsize := KeyedMap.size_erase_of_mem (KeyedMap.mem_of_lookup hk)
      constructor <;> simp [Table.apply, Table.evict, hk] <;> omega

/-! ## Clients -/

/-- A transition system with a table in its state, whose actions are operations on the table. -/
structure Client (S A K P R : Type) [DecidableEq K] where
  step : S → A → S
  op : S → A → Op K P R
  table : S → Table K P R
  sim : ∀ s a, table (step s a) = (table s).apply (op s a)

namespace Client

variable (c : Client S A K P R) (s₀ : S)

/-! What one step does to the payload stored under one key. -/

section Lookup
variable {s : S} {a : A} {k : K} {p : P}

theorem lookup_step_of_ne (h : (c.op s a).key? ≠ some k) :
    (c.table (c.step s a)).pending.lookup k = (c.table s).pending.lookup k := by
  rw [c.sim, Table.lookup_apply_of_ne _ h]

theorem lookup_step_of_none (h : (c.table s).pending.lookup k = none)
    (ho : ∀ p, c.op s a ≠ .enter k p true) : (c.table (c.step s a)).pending.lookup k = none := by
  rw [c.sim, Table.lookup_apply_of_none h ho]

theorem lookup_step_of_enter (h : (c.table s).pending.lookup k = none)
    (ho : c.op s a = .enter k p true) : (c.table (c.step s a)).pending.lookup k = some p := by
  rw [c.sim, ho, Table.apply_enter_of_none p h, AList.lookup_insert]

theorem lookup_step_of_stored (h : (c.table s).pending.lookup k = some p)
    (ho : ¬ (c.op s a).removesKey k) : (c.table (c.step s a)).pending.lookup k = some p := by
  rw [c.sim, Table.lookup_apply_of_stored h ho]

theorem lookup_step_of_removes (ho : (c.op s a).removesKey k) :
    (c.table (c.step s a)).pending.lookup k = none := by
  rw [c.sim, Table.lookup_apply_of_removes _ ho]

end Lookup

def run (as : List A) : S := as.foldl c.step s₀

theorem run_snoc (as : List A) (a : A) : c.run s₀ (as ++ [a]) = c.step (c.run s₀ as) a := by
  simp [run]

/-- Action `i` of the run enters `k` with payload `p` and there is room to store it. -/
def EntersAt (as : List A) (i : Nat) (k : K) (p : P) : Prop :=
  ∃ pre a post, as = pre ++ a :: post ∧ pre.length = i ∧ c.op (c.run s₀ pre) a = .enter k p true

/-- Action `i` of the run exits `k`, with room for the output made by `finish`. -/
def ExitsAt (as : List A) (i : Nat) (k : K) (finish : P → R) : Prop :=
  ∃ pre a post, as = pre ++ a :: post ∧ pre.length = i ∧
    c.op (c.run s₀ pre) a = .exit k finish true

/-- Output `r` was made by some exit of the run from the payload that action `i` entered with. -/
def MadeFrom (as : List A) (i : Nat) (r : R) : Prop :=
  ∃ j k p finish, i < j ∧ c.EntersAt s₀ as i k p ∧ c.ExitsAt s₀ as j k finish ∧ r = finish p

variable {c s₀}

theorem EntersAt.snoc {as : List A} {i : Nat} {k : K} {p : P} (h : c.EntersAt s₀ as i k p) (a : A) :
    c.EntersAt s₀ (as ++ [a]) i k p := by
  obtain ⟨pre, b, post, rfl, hi, hop⟩ := h
  exact ⟨pre, b, post ++ [a], by simp, hi, hop⟩

theorem ExitsAt.snoc {as : List A} {i : Nat} {k : K} {finish : P → R}
    (h : c.ExitsAt s₀ as i k finish) (a : A) : c.ExitsAt s₀ (as ++ [a]) i k finish := by
  obtain ⟨pre, b, post, rfl, hi, hop⟩ := h
  exact ⟨pre, b, post ++ [a], by simp, hi, hop⟩

theorem MadeFrom.snoc {as : List A} {i : Nat} {r : R} (h : c.MadeFrom s₀ as i r) (a : A) :
    c.MadeFrom s₀ (as ++ [a]) i r := by
  obtain ⟨j, k, p, finish, hij, hin, hout, hr⟩ := h
  exact ⟨j, k, p, finish, hij, hin.snoc a, hout.snoc a, hr⟩

theorem EntersAt.lt {as : List A} {i : Nat} {k : K} {p : P} (h : c.EntersAt s₀ as i k p) :
    i < as.length := by
  obtain ⟨pre, b, post, rfl, hi, -⟩ := h
  simp only [List.length_append, List.length_cons]
  omega

theorem EntersAt.key_unique {as : List A} {i : Nat} {k k' : K} {p p' : P}
    (h : c.EntersAt s₀ as i k p) (h' : c.EntersAt s₀ as i k' p') : k = k' := by
  obtain ⟨pre, a, post, rfl, hi, hop⟩ := h
  obtain ⟨pre', a', post', heq, hi', hop'⟩ := h'
  obtain ⟨rfl, hcons⟩ := List.append_inj heq (hi.trans hi'.symm)
  obtain ⟨rfl, -⟩ := List.cons.inj hcons
  rw [hop] at hop'
  cases hop'
  rfl

/-- Some action of the run enters `k` with payload `p` and room to store it, and no operation since
then is in `Q`. -/
def Since (c : Client S A K P R) (s₀ : S) (Q : Op K P R → Prop) (as : List A) (k : K) (p : P) :
    Prop :=
  ∃ pre a post, as = pre ++ a :: post ∧ c.op (c.run s₀ pre) a = .enter k p true ∧
    ∀ u b v, post = u ++ b :: v → ¬ Q (c.op (c.run s₀ (pre ++ a :: u)) b)

/-- The last action of the run to enter `k` stored payload `p`. -/
def LastEntry (c : Client S A K P R) (s₀ : S) (as : List A) (k : K) (p : P) : Prop :=
  Since c s₀ (Op.entersKey k) as k p

/-- Payload `p` was stored under `k`, and nothing has taken it out. -/
def Stored (c : Client S A K P R) (s₀ : S) (as : List A) (k : K) (p : P) : Prop :=
  Since c s₀ (Op.removesKey k) as k p

end Client

/-! ## Runs with their history -/

/-- The history of a run, which no step reads: the accounts, the number of actions so far, the
action that stored each pending payload, the action whose payload each output was made of, and
whether a pending payload was there already when its key was last entered. -/
structure History (K : Type) where
  ledger : Ledger := {}
  clock : Nat := 0
  birth : K → Nat := fun _ => 0
  origins : List Nat := []
  leftover : K → Bool := fun _ => false

namespace History

def birthAfter (h : History K) (t : Table K P R) : Op K P R → K → Nat
  | .enter k _ true =>
    if (t.pending.lookup k).isSome then h.birth else Function.update h.birth k h.clock
  | _ => h.birth

def originsAfter (h : History K) (t : Table K P R) : Op K P R → List Nat
  | .exit k _ true => if (t.pending.lookup k).isSome then h.origins ++ [h.birth k] else h.origins
  | _ => h.origins

def leftoverAfter (h : History K) (t : Table K P R) : Op K P R → K → Bool
  | .skipEnter k | .refuse k | .enter k _ _ =>
    Function.update h.leftover k (t.pending.lookup k).isSome
  | .exit k _ _ | .evict k => Function.update h.leftover k false
  | _ => h.leftover

def record (h : History K) (t : Table K P R) (o : Op K P R) : History K where
  ledger := h.ledger.record t o
  clock := h.clock + 1
  birth := h.birthAfter t o
  origins := h.originsAfter t o
  leftover := h.leftoverAfter t o

/-- An entry marks what it finds. -/
theorem leftoverAfter_of_enters (h : History K) (t : Table K P R) {o : Op K P R} {k : K}
    (ho : o.entersKey k) : h.leftoverAfter t o k = (t.pending.lookup k).isSome := by
  cases o with
  | skipEnter k₀ | refuse k₀ | enter k₀ p room =>
    obtain rfl : k₀ = k := ho
    exact Function.update_self ..
  | _ => exact ho.elim

theorem leftoverAfter_of_other (h : History K) (t : Table K P R) {o : Op K P R} {k : K}
    (henters : ¬o.entersKey k) (hremoves : ¬o.removesKey k) : h.leftoverAfter t o k = h.leftover k := by
  cases o with
  | idle => rfl
  | skipExit k₀ => rfl
  | skipEnter k₀ | refuse k₀ | enter k₀ p room => exact Function.update_of_ne (fun he => henters he.symm) ..
  | exit k₀ finish room => exact Function.update_of_ne (fun he => hremoves he.symm) ..
  | evict k₀ => exact Function.update_of_ne (fun he => hremoves he.symm) ..

/-- What one operation does to the stored payloads and the outputs, with their histories. -/
inductive Change (h : History K) (t : Table K P R) (o : Op K P R) : Prop where
  | kept (pending : (t.apply o).pending = t.pending) (out : (t.apply o).out = t.out)
      (birth : h.birthAfter t o = h.birth) (origins : h.originsAfter t o = h.origins)
  | stored (k : K) (p : P) (op : o = .enter k p true)
      (pending : (t.apply o).pending = t.pending.insert k p) (out : (t.apply o).out = t.out)
      (birth : h.birthAfter t o = Function.update h.birth k h.clock)
      (origins : h.originsAfter t o = h.origins)
  | emitted (k : K) (p : P) (finish : P → R) (op : o = .exit k finish true)
      (lookup : t.pending.lookup k = some p) (pending : (t.apply o).pending = t.pending.erase k)
      (out : (t.apply o).out = t.out ++ [finish p]) (birth : h.birthAfter t o = h.birth)
      (origins : h.originsAfter t o = h.origins ++ [h.birth k])
  | lost (k : K) (pending : (t.apply o).pending = t.pending.erase k) (out : (t.apply o).out = t.out)
      (birth : h.birthAfter t o = h.birth) (origins : h.originsAfter t o = h.origins)

theorem change (h : History K) (t : Table K P R) (o : Op K P R) : h.Change t o := by
  cases o with
  | idle => exact .kept rfl rfl rfl rfl
  | skipEnter k => exact .kept rfl rfl rfl rfl
  | skipExit k => exact .kept rfl rfl rfl rfl
  | refuse k => exact .kept rfl rfl rfl rfl
  | enter k p room =>
    cases hk : t.pending.lookup k with
    | some q =>
      have ht := Table.apply_enter_of_some p room hk
      refine .kept (by rw [ht]) (by rw [ht]) ?_ rfl
      cases room <;> simp [birthAfter, hk]
    | none =>
      cases room with
      | true =>
        have ht := Table.apply_enter_of_none p hk
        exact .stored k p rfl (by rw [ht]) (by rw [ht]) (by simp [birthAfter, hk]) rfl
      | false =>
        have ht := Table.apply_enter_of_full p hk
        exact .kept (by rw [ht]) (by rw [ht]) rfl rfl
  | exit k finish room =>
    cases hk : t.pending.lookup k with
    | none =>
      have ht := Table.apply_exit_of_none finish room hk
      refine .kept (by rw [ht]) (by rw [ht]) rfl ?_
      cases room <;> simp [originsAfter, hk]
    | some p =>
      cases room with
      | true =>
        have ht := Table.apply_exit_of_some finish hk
        exact .emitted k p finish rfl hk (by rw [ht]) (by rw [ht]) rfl (by simp [originsAfter, hk])
      | false =>
        have ht := Table.apply_exit_of_full finish hk
        exact .lost k (by rw [ht]) (by rw [ht]) rfl rfl
  | evict k => exact .lost k rfl rfl rfl rfl

end History

/-! ## Counting along a run -/

section Tally
variable (step : S → A → S) (s₀ : S) (p : S → A → Bool)

/-- The number of actions of the run at which `p` holds, of the state before the action. -/
def tally (as : List A) : Nat :=
  (as.foldl (fun w a => (step w.1 a, w.2 + (p w.1 a).toNat)) (s₀, 0)).2

theorem foldl_tally_fst (as : List A) (n : Nat) :
    (as.foldl (fun w a => (step w.1 a, w.2 + (p w.1 a).toNat)) (s₀, n)).1 =
      as.foldl step s₀ := by
  induction as using List.reverseRecOn with
  | nil => rfl
  | append_singleton as a ih => rw [List.foldl_append, List.foldl_append, List.foldl_cons, ih]; rfl

theorem tally_snoc (as : List A) (a : A) :
    tally step s₀ p (as ++ [a]) =
      tally step s₀ p as + (p (as.foldl step s₀) a).toNat := by
  rw [tally, List.foldl_append, List.foldl_cons, List.foldl_nil, foldl_tally_fst]
  rfl

/-- Two tests that agree on the actions of the run, in any state, count the same. -/
theorem tally_congr {q : S → A → Bool} {as : List A} (h : ∀ a ∈ as, ∀ s, p s a = q s a) :
    tally step s₀ p as = tally step s₀ q as := by
  induction as using List.reverseRecOn with
  | nil => rfl
  | append_singleton as a ih =>
    rw [tally_snoc, tally_snoc, ih fun b hb => h b (List.mem_append_left _ hb),
      h a (List.mem_append_right _ (List.mem_singleton_self a))]

end Tally

namespace Client

variable (c : Client S A K P R) (s₀ : S)

def tick (w : S × History K) (a : A) : S × History K :=
  (c.step w.1 a, w.2.record (c.table w.1) (c.op w.1 a))

def history (as : List A) : History K := (as.foldl c.tick (s₀, {})).2

theorem foldl_tick_fst (as : List A) : (as.foldl c.tick (s₀, {})).1 = c.run s₀ as := by
  induction as using List.reverseRecOn with
  | nil => rfl
  | append_singleton as a ih =>
    rw [List.foldl_append, run_snoc, List.foldl_cons, List.foldl_nil, tick, ih]

theorem history_snoc (as : List A) (a : A) :
    c.history s₀ (as ++ [a]) =
      (c.history s₀ as).record (c.table (c.run s₀ as)) (c.op (c.run s₀ as) a) := by
  rw [history, List.foldl_append, List.foldl_cons, List.foldl_nil, tick, foldl_tick_fst]
  rfl

theorem leftover_snoc (as : List A) (a : A) :
    (c.history s₀ (as ++ [a])).leftover =
      (c.history s₀ as).leftoverAfter (c.table (c.run s₀ as)) (c.op (c.run s₀ as) a) := by
  rw [history_snoc]
  rfl

theorem history_clock (as : List A) : (c.history s₀ as).clock = as.length := by
  induction as using List.reverseRecOn with
  | nil => rfl
  | append_singleton as a ih => rw [history_snoc, History.record, ih]; simp

theorem table_snoc (as : List A) (a : A) :
    c.table (c.run s₀ (as ++ [a])) = (c.table (c.run s₀ as)).apply (c.op (c.run s₀ as) a) := by
  rw [run_snoc, c.sim]

/-- The accounts of a run are counts of its operations. -/
theorem ledger_eq (as : List A) :
    (c.history s₀ as).ledger =
      { enters := tally c.step s₀ (fun s a => (c.op s a).isEntry) as
        exits := tally c.step s₀ (fun s a => (c.op s a).isExit) as
        refused := tally c.step s₀ (fun s a => (c.op s a).isRefused) as
        dropped := tally c.step s₀ (fun s a => (c.op s a).isDropped (c.table s)) as
        evicted := tally c.step s₀ (fun s a => (c.op s a).isEvicted (c.table s)) as } := by
  induction as using List.reverseRecOn with
  | nil => rfl
  | append_singleton as a ih =>
    rw [history_snoc, History.record, ih]
    simp only [tally_snoc]
    rfl

variable {c s₀}

theorem balanced (h₀ : c.table s₀ = {}) (as : List A) :
    Balanced (c.table (c.run s₀ as)) (c.history s₀ as).ledger := by
  induction as using List.reverseRecOn with
  | nil =>
    rw [show c.run s₀ [] = s₀ from rfl, h₀]
    exact ⟨rfl, rfl⟩
  | append_singleton as a ih =>
    rw [table_snoc, history_snoc]
    exact ih.step _

/-! ### The origin of an output -/

/-- The history of a run: where each pending payload and each output comes from. -/
structure Traced (c : Client S A K P R) (s₀ : S) (as : List A) (t : Table K P R) (h : History K) :
    Prop where
  stored : ∀ k p, t.pending.lookup k = some p → c.EntersAt s₀ as (h.birth k) k p
  unused : ∀ k p, t.pending.lookup k = some p → h.birth k ∉ h.origins
  past : ∀ i ∈ h.origins, i < as.length
  nodup : h.origins.Nodup
  made : List.Forall₂ (c.MadeFrom s₀ as) h.origins t.out

theorem Traced.init : Traced c s₀ [] {} {} where
  stored := fun _ _ h => nomatch h
  unused := fun _ _ h => nomatch h
  past := fun _ h => nomatch h
  nodup := List.nodup_nil
  made := .nil

theorem Traced.step {as : List A} {t : Table K P R} {h : History K} (ht : Traced c s₀ as t h)
    (hclock : h.clock = as.length) (a : A) :
    Traced c s₀ (as ++ [a]) (t.apply (c.op (c.run s₀ as) a))
      (h.record t (c.op (c.run s₀ as) a)) := by
  have hmade : List.Forall₂ (c.MadeFrom s₀ (as ++ [a])) h.origins t.out :=
    ht.made.imp fun _ _ hm => hm.snoc a
  have hlen : (as ++ [a]).length = as.length + 1 := by simp
  have hpast : ∀ i ∈ h.origins, i < (as ++ [a]).length := fun i hi => by
    have := ht.past i hi
    omega
  rcases h.change t (c.op (c.run s₀ as) a) with ⟨hp, ho, hb, hg⟩ | ⟨k₀, p₀, hop, hp, ho, hb, hg⟩ |
    ⟨k₀, p₀, finish, hop, hk, hp, ho, hb, hg⟩ | ⟨k₀, hp, ho, hb, hg⟩
  · constructor <;> simp only [History.record, hp, ho, hb, hg]
    · exact fun k p hl => (ht.stored k p hl).snoc a
    · exact ht.unused
    · exact hpast
    · exact ht.nodup
    · exact hmade
  · -- the new payload is born at this action, which no output can come from yet
    have hnew : c.EntersAt s₀ (as ++ [a]) h.clock k₀ p₀ := ⟨as, a, [], rfl, hclock.symm, hop⟩
    constructor <;> simp only [History.record, hp, ho, hb, hg, KeyedMap.lookup_insert_ite]
    · intro k p hl
      split at hl
      · subst k
        cases hl
        rwa [Function.update_self]
      · rw [Function.update_of_ne ‹_›]
        exact (ht.stored k p hl).snoc a
    · intro k p hl
      split at hl
      · subst k
        rw [Function.update_self]
        intro hmem
        have := ht.past _ hmem
        omega
      · rw [Function.update_of_ne ‹_›]
        exact ht.unused k p hl
    · exact hpast
    · exact ht.nodup
    · exact hmade
  · have hborn := ht.stored k₀ p₀ hk
    have hfrom : c.MadeFrom s₀ (as ++ [a]) (h.birth k₀) (finish p₀) :=
      ⟨as.length, k₀, p₀, finish, hborn.lt, hborn.snoc a, ⟨as, a, [], rfl, rfl, hop⟩, rfl⟩
    constructor <;> simp only [History.record, hp, ho, hb, hg]
    · exact fun k p hl => (ht.stored k p (KeyedMap.lookup_erase_eq_some.mp hl).2).snoc a
    · intro k p hl hmem
      obtain ⟨hne, hl⟩ := KeyedMap.lookup_erase_eq_some.mp hl
      rcases List.mem_append.mp hmem with hmem | hmem
      · exact ht.unused k p hl hmem
      · have hin := ht.stored k p hl
        rw [List.mem_singleton.mp hmem] at hin
        exact hne (hin.key_unique hborn)
    · intro i hi
      rcases List.mem_append.mp hi with hi | hi
      · exact hpast i hi
      · rw [List.mem_singleton.mp hi]
        exact (hborn.snoc a).lt
    · exact ht.nodup.append (List.nodup_singleton _)
        (List.disjoint_singleton.mpr (ht.unused k₀ p₀ hk))
    · exact List.rel_append hmade (.cons hfrom .nil)
  · constructor <;> simp only [History.record, hp, ho, hb, hg]
    · exact fun k p hl => (ht.stored k p (KeyedMap.lookup_erase_eq_some.mp hl).2).snoc a
    · exact fun k p hl => ht.unused k p (KeyedMap.lookup_erase_eq_some.mp hl).2
    · exact hpast
    · exact ht.nodup
    · exact hmade

theorem traced (h₀ : c.table s₀ = {}) (as : List A) :
    Traced c s₀ as (c.table (c.run s₀ as)) (c.history s₀ as) := by
  induction as using List.reverseRecOn with
  | nil =>
    rw [show c.run s₀ [] = s₀ from rfl, h₀]
    exact Traced.init
  | append_singleton as a ih =>
    rw [table_snoc, history_snoc]
    exact ih.step (c.history_clock s₀ as) a

/-- **A stored payload is consumed at most once**: the actions whose payloads the outputs were made
of are pairwise different. -/
theorem origins_nodup (h₀ : c.table s₀ = {}) (as : List A) :
    ∃ origins : List Nat, origins.Nodup ∧
      List.Forall₂ (c.MadeFrom s₀ as) origins (c.table (c.run s₀ as)).out :=
  ⟨_, (traced h₀ as).nodup, (traced h₀ as).made⟩

/-! ### The stored payloads -/

/-- The operation that action `n` of the run is. -/
def OpAt (c : Client S A K P R) (s₀ : S) (as : List A) (n : Nat) (o : Op K P R) : Prop :=
  ∃ a, as[n]? = some a ∧ c.op (c.run s₀ (as.take n)) a = o

theorem opAt_iff {as : List A} {n : Nat} {o : Op K P R} :
    OpAt c s₀ as n o ↔ At (fun before a => c.op (c.run s₀ before) a = o) as n :=
  Iff.rfl

theorem OpAt.lt {as : List A} {n : Nat} {o : Op K P R} (h : OpAt c s₀ as n o) : n < as.length :=
  (opAt_iff.mp h).lt

theorem opAt_snoc {as : List A} {a : A} {n : Nat} {o : Op K P R} :
    OpAt c s₀ (as ++ [a]) n o ↔ OpAt c s₀ as n o ∨ n = as.length ∧ c.op (c.run s₀ as) a = o := by
  rw [opAt_iff, opAt_iff, at_snoc]

theorem OpAt.last {as : List A} {a : A} : OpAt c s₀ (as ++ [a]) as.length (c.op (c.run s₀ as) a) :=
  opAt_snoc.mpr (Or.inr ⟨rfl, rfl⟩)

theorem OpAt.snoc {as : List A} {n : Nat} {o : Op K P R} (h : OpAt c s₀ as n o) (a : A) :
    OpAt c s₀ (as ++ [a]) n o :=
  opAt_snoc.mpr (Or.inl h)

/-- What action `n` entered `k` with is stored: what was stored earlier had been taken out by then,
and nothing has been taken out since. -/
structure Holds (c : Client S A K P R) (s₀ : S) (as : List A) (n : Nat) (k : K) (p : P) : Prop where
  entered : OpAt c s₀ as n (.enter k p true)
  kept : ∀ m o, n < m → OpAt c s₀ as m o → ¬o.removesKey k
  first : ∀ m q, m < n → OpAt c s₀ as m (.enter k q true) →
    ∃ j o, m < j ∧ j < n ∧ OpAt c s₀ as j o ∧ o.removesKey k

theorem Holds.init {as : List A} {a : A} {n : Nat} {k : K} {p : P} (h : Holds c s₀ (as ++ [a]) n k p)
    (hlt : n < as.length) : Holds c s₀ as n k p where
  entered := (opAt_snoc.mp h.entered).resolve_right fun heq => hlt.ne heq.1
  kept := fun m o hm ho => h.kept m o hm (ho.snoc a)
  first := fun m q hm hq => by
    obtain ⟨j, o, hmj, hjn, ho, hremoves⟩ := h.first m q hm (hq.snoc a)
    exact ⟨j, o, hmj, hjn, (opAt_snoc.mp ho).resolve_right fun heq => (hjn.trans hlt).ne heq.1, hremoves⟩

theorem Holds.snoc {as : List A} {a : A} {n : Nat} {k : K} {p : P} (h : Holds c s₀ as n k p)
    (hkept : ¬(c.op (c.run s₀ as) a).removesKey k) : Holds c s₀ (as ++ [a]) n k p where
  entered := h.entered.snoc a
  kept := fun m o hm ho => by
    rcases opAt_snoc.mp ho with ho | ⟨-, rfl⟩
    · exact h.kept m o hm ho
    · exact hkept
  first := fun m q hm hq => by
    have hlt := hm.trans h.entered.lt
    obtain ⟨j, o, hmj, hjn, ho, hremoves⟩ :=
      h.first m q hm ((opAt_snoc.mp hq).resolve_right fun heq => hlt.ne heq.1)
    exact ⟨j, o, hmj, hjn, ho.snoc a, hremoves⟩

/-- Two payloads are not stored under one key. -/
theorem Holds.unique {as : List A} {n n' : Nat} {k : K} {p p' : P} (h : Holds c s₀ as n k p)
    (h' : Holds c s₀ as n' k p') : n = n' := by
  have hle : ∀ {n n' : Nat} {p p' : P}, Holds c s₀ as n k p → Holds c s₀ as n' k p' → ¬n < n' := by
    intro n n' p p' h h' hlt
    obtain ⟨j, o, hj, -, ho, hremoves⟩ := h'.first n p hlt h.entered
    exact h.kept j o hj ho hremoves
  exact Nat.le_antisymm (Nat.le_of_not_lt (hle h' h)) (Nat.le_of_not_lt (hle h h'))

/-- After an entry something is stored for as long as nothing is taken out. -/
theorem lookup_isSome_of_entered {as : List A} {n : Nat} {k : K} {p : P}
    (h : OpAt c s₀ as n (.enter k p true)) (hkept : ∀ m o, n < m → OpAt c s₀ as m o → ¬o.removesKey k) :
    ((c.table (c.run s₀ as)).pending.lookup k).isSome = true := by
  induction as using List.reverseRecOn with
  | nil => exact absurd h.lt (Nat.not_lt_zero _)
  | append_singleton as a ih =>
    rw [run_snoc]
    rcases opAt_snoc.mp h with h | ⟨rfl, hop⟩
    · have hsome := ih h fun m o hm ho => hkept m o hm (ho.snoc a)
      obtain ⟨q, hq⟩ := Option.isSome_iff_exists.mp hsome
      rw [c.lookup_step_of_stored hq (hkept _ _ h.lt OpAt.last)]
      rfl
    · cases hl : (c.table (c.run s₀ as)).pending.lookup k with
      | some q =>
        rw [c.lookup_step_of_stored hl (by rw [hop]; exact id)]
        rfl
      | none =>
        rw [c.lookup_step_of_enter hl hop]
        rfl

/-- **What is stored** is what the first entry has brought since the last time that something was
taken out. -/
theorem lookup_iff (h₀ : c.table s₀ = {}) (as : List A) {k : K} {p : P} :
    (c.table (c.run s₀ as)).pending.lookup k = some p ↔ ∃ n, Holds c s₀ as n k p := by
  induction as using List.reverseRecOn generalizing p with
  | nil =>
    rw [show c.run s₀ [] = s₀ from rfl, h₀]
    exact ⟨nofun, fun ⟨n, h⟩ => absurd h.entered.lt (Nat.not_lt_zero _)⟩
  | append_singleton as a ih =>
    rw [run_snoc]
    by_cases hrem : (c.op (c.run s₀ as) a).removesKey k
    · rw [c.lookup_step_of_removes hrem]
      refine ⟨nofun, fun ⟨n, h⟩ => ?_⟩
      rcases opAt_snoc.mp h.entered with hin | ⟨-, hop⟩
      · exact absurd hrem (h.kept _ _ hin.lt OpAt.last)
      · rw [hop] at hrem
        exact hrem.elim
    · cases hl : (c.table (c.run s₀ as)).pending.lookup k with
      | some q =>
        rw [c.lookup_step_of_stored hl hrem]
        obtain ⟨n₀, h₀⟩ := ih.mp hl
        constructor
        · intro h
          cases h
          exact ⟨n₀, h₀.snoc hrem⟩
        · rintro ⟨n, h⟩
          obtain rfl := h.unique (h₀.snoc hrem)
          exact hl.symm.trans (ih.mpr ⟨n, h.init h₀.entered.lt⟩)
      | none =>
        by_cases hop : c.op (c.run s₀ as) a = .enter k p true
        · rw [c.lookup_step_of_enter hl hop]
          refine ⟨fun _ => ⟨as.length, ?_, ?_, ?_⟩, fun _ => rfl⟩
          · exact opAt_snoc.mpr (Or.inr ⟨rfl, hop⟩)
          · intro m o hm ho
            have hlt := ho.lt
            rw [List.length_append, List.length_singleton] at hlt
            omega
          · -- an earlier entry has been taken out, or something would be stored
            intro m q hm hq
            by_contra hnone
            have hin := (opAt_snoc.mp hq).resolve_right fun heq => hm.ne heq.1
            have hsome := lookup_isSome_of_entered hin fun j o hj ho hremoves =>
              hnone ⟨j, o, hj, ho.lt, ho.snoc a, hremoves⟩
            rw [hl] at hsome
            cases hsome
        · constructor
          · intro h
            by_cases hother : ∃ q, c.op (c.run s₀ as) a = .enter k q true
            · obtain ⟨q, hq⟩ := hother
              rw [c.lookup_step_of_enter hl hq] at h
              cases h
              exact absurd hq hop
            · rw [c.lookup_step_of_none hl fun q hq => hother ⟨q, hq⟩] at h
              cases h
          · rintro ⟨n, h⟩
            rcases opAt_snoc.mp h.entered with hin | ⟨-, hop'⟩
            · have hsome := ih.mpr ⟨n, h.init hin.lt⟩
              rw [hl] at hsome
              cases hsome
            · exact absurd hop' hop

/-- **What is left over**: a stored payload whose key has been entered again since its own entry. -/
theorem leftover_iff (h₀ : c.table s₀ = {}) (as : List A) {n : Nat} {k : K} {p : P}
    (h : Holds c s₀ as n k p) :
    (c.history s₀ as).leftover k = true ↔ ∃ m o, n < m ∧ OpAt c s₀ as m o ∧ o.entersKey k := by
  induction as using List.reverseRecOn with
  | nil => exact absurd h.entered.lt (Nat.not_lt_zero _)
  | append_singleton as a ih =>
    rw [leftover_snoc]
    rcases opAt_snoc.mp h.entered with hin | ⟨rfl, hop⟩
    · have hinit := h.init hin.lt
      by_cases henters : (c.op (c.run s₀ as) a).entersKey k
      · have hstored := (lookup_iff h₀ as).mpr ⟨n, hinit⟩
        rw [History.leftoverAfter_of_enters _ _ henters, hstored]
        exact ⟨fun _ => ⟨as.length, _, hin.lt, OpAt.last, henters⟩, fun _ => rfl⟩
      · rw [History.leftoverAfter_of_other _ _ henters (h.kept _ _ hin.lt OpAt.last), ih hinit]
        constructor
        · rintro ⟨m, o, hm, ho, hagain⟩
          exact ⟨m, o, hm, ho.snoc a, hagain⟩
        · rintro ⟨m, o, hm, ho, hagain⟩
          rcases opAt_snoc.mp ho with ho | ⟨-, rfl⟩
          · exact ⟨m, o, hm, ho, hagain⟩
          · exact absurd hagain henters
    · -- its own entry has found nothing
      have hnone : (c.table (c.run s₀ as)).pending.lookup k = none := by
        by_contra hsome
        obtain ⟨q, hq⟩ := Option.ne_none_iff_exists'.mp hsome
        obtain ⟨m, hm⟩ := (lookup_iff h₀ as).mp hq
        obtain ⟨j, o, hmj, hj, ho, hremoves⟩ := h.first m q hm.entered.lt (hm.entered.snoc a)
        exact hm.kept j o hmj ((opAt_snoc.mp ho).resolve_right fun heq => hj.ne heq.1) hremoves
      have henters : (c.op (c.run s₀ as) a).entersKey k := by rw [hop]; rfl
      rw [History.leftoverAfter_of_enters _ _ henters, hnone]
      refine ⟨fun h => (by cases h), ?_⟩
      rintro ⟨m, o, hm, ho, -⟩
      have hlt := ho.lt
      rw [List.length_append, List.length_singleton] at hlt
      omega

theorem opAt_split (pre : List A) (a : A) (post : List A) :
    OpAt c s₀ (pre ++ a :: post) pre.length (c.op (c.run s₀ pre) a) :=
  ⟨a, by simp, by rw [List.take_left]⟩

/-- A stored payload, with what its entry and the later operations are told of. -/
theorem Holds.since {Q : Op K P R → Prop} {as : List A} {n : Nat} {k : K} {p : P} (h : Holds c s₀ as n k p)
    (hpost : ∀ m o, n < m → OpAt c s₀ as m o → ¬Q o) : Since c s₀ Q as k p := by
  have hlt := h.entered.lt
  obtain ⟨a, ha, hop⟩ := h.entered
  have hsplit : as = as.take n ++ a :: as.drop (n + 1) := by
    obtain ⟨-, rfl⟩ := List.getElem?_eq_some_iff.mp ha
    rw [← List.drop_eq_getElem_cons hlt, List.take_append_drop]
  refine ⟨as.take n, a, as.drop (n + 1), hsplit, hop, fun u b v hdrop => ?_⟩
  have hat : OpAt c s₀ _ _ _ := opAt_split (as.take n ++ a :: u) b v
  rw [List.append_assoc, List.cons_append, ← hdrop, ← hsplit] at hat
  refine hpost _ _ ?_ hat
  rw [List.length_append, List.length_cons, List.length_take_of_le (Nat.le_of_lt hlt)]
  omega

/-- **A stored payload** has been there since its entry. -/
theorem stored (h₀ : c.table s₀ = {}) (as : List A) {k : K} {p : P}
    (hk : (c.table (c.run s₀ as)).pending.lookup k = some p) : Stored c s₀ as k p := by
  obtain ⟨n, hn⟩ := (lookup_iff h₀ as).mp hk
  exact hn.since hn.kept

/-- **A payload that is not left over is that of the last entry**: what an exit finds, unless it
was stored already when its own operation was entered, was stored by that entry. -/
theorem last_entry_of_not_leftover (h₀ : c.table s₀ = {}) (as : List A) {k : K} {p : P}
    (hk : (c.table (c.run s₀ as)).pending.lookup k = some p)
    (hl : (c.history s₀ as).leftover k = false) : LastEntry c s₀ as k p := by
  obtain ⟨n, hn⟩ := (lookup_iff h₀ as).mp hk
  refine hn.since fun m o hm ho henters => ?_
  rw [(leftover_iff h₀ as hn).mpr ⟨m, o, hm, ho, henters⟩] at hl
  cases hl

end Client

end ETraceGen.Pairing
