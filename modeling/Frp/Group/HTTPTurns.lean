/-
The turns of an http group, `createConn` of `server/group/http.go`: a counter of 64
bits that every call adds one to is turned into an `int` before the remainder by
the number of members is taken.
-/
import Frp.Group.HTTP
import Frp.Lib.GoInt
import Mathlib.Data.List.Rotate

namespace Frp

open GoStrings GoInt

namespace HTTPGroup

/-- The groups that `Register` and `UnRegister` leave behind, with the counter at
any value.  Every proxy registers with a function of its own. -/
inductive Registered : HTTPGroup → Prop where
  | new : Registered newHTTPGroup
  | found {g : HTTPGroup} (hempty : g.members = ∅) (group groupKey : Bytes)
      (routeConfig : RouteConfig RealConn) :
      Registered g → Registered (g.found group groupKey routeConfig)
  | addMember {g g' : HTTPGroup} {proxyName : Bytes}
      {createConnFn : CreateConnFunc}
      (hadd : g.addMember proxyName (some createConnFn) = .ok g') :
      Registered g → Registered g'
  | removeMember {g : HTTPGroup} (proxyName : Bytes) :
      Registered g → Registered (g.removeMember proxyName)
  | count {g : HTTPGroup} (index : UInt64) :
      Registered g → Registered { g with index := index }

/-- Every member has a function to call. -/
def Served (g : HTTPGroup) : Prop :=
  ∀ name ∈ g.members, ∃ createConnFn,
    g.createFuncs.lookup name = some (some createConnFn)

/-- The remainder that `createConn` looks into `pxyNames` with, for an `int` of
width `w`. -/
def remainder (w : Width) (g : HTTPGroup) : Int :=
  (w.wrap (g.index + 1).toNat).tmod g.pxyNames.length

/-- The member whose turn the next call is. -/
def turn (w : Width) (g : HTTPGroup) : Option Bytes :=
  if g.remainder w < 0 then none else g.pxyNames[(g.remainder w).toNat]?

/-- The group after calls from these addresses. -/
def after (w : Width) : HTTPGroup → List Bytes → HTTPGroup
  | g, [] => g
  | g, remoteAddr :: rest => after w (g.createConn w.bits remoteAddr).1 rest

/-- The text of `createConn` without a function to call. -/
def noCreateConn (g : HTTPGroup) : Bytes :=
  ascii "no CreateConnFunc for http group [" ++ g.group ++
    ascii "], domain [" ++ g.domain ++ ascii "], location [" ++ g.location ++
    ascii "], routeByHTTPUser [" ++ g.routeByHTTPUser ++ ascii "]"

/-- Every call comes to a registered member, whose function makes the connection,
and every member has one of the calls. -/
structure RoundRobin (w : Width) (g : HTTPGroup) (addrs : List Bytes) : Prop where
  answered : ∀ i (hi : i < addrs.length), ∃ name createConnFn,
    (g.after w (addrs.take i)).turn w = some name ∧ name ∈ g.members ∧
      g.createFuncs.lookup name = some (some createConnFn) ∧
      ((g.after w (addrs.take i)).createConn w.bits addrs[i]).2 =
        some (createConnFn addrs[i])
  once : ∀ name ∈ g.members, ∃! i, i < addrs.length ∧
    (g.after w (addrs.take i)).turn w = some name

/-- As an `int`, every number that as many calls as members count is not negative
or divides evenly. -/
def Countable (w : Width) (g : HTTPGroup) : Prop :=
  ∀ i < g.members.card, 0 ≤ w.wrap (g.index.toNat + 1 + i) ∨
    (g.members.card : Int) ∣ w.wrap (g.index.toNat + 1 + i)

instance (w : Width) (g : HTTPGroup) : Decidable (g.Countable w) :=
  inferInstanceAs (Decidable (∀ i < g.members.card, _))

variable {g : HTTPGroup} {w : Width}

theorem Registered.listed (hreg : g.Registered) : g.Listed := by
  induction hreg with
  | new => exact listed_newHTTPGroup
  | found _ _ _ _ _ ih => exact ⟨ih.nodup, ih.names⟩
  | addMember hadd _ ih => exact ih.addMember hadd
  | removeMember proxyName _ ih => exact ih.removeMember proxyName
  | count index _ ih => exact ⟨ih.nodup, ih.names⟩

theorem served_addMember {g' : HTTPGroup} {proxyName : Bytes}
    {createConnFn : CreateConnFunc} (hserved : g.Served)
    (hadd : g.addMember proxyName (some createConnFn) = .ok g') :
    g'.Served := by
  unfold addMember at hadd
  split at hadd
  · cases hadd
  · cases hadd
    intro name hname
    by_cases hself : name = proxyName
    · subst hself
      exact ⟨createConnFn, Finmap.lookup_insert _⟩
    · rw [mem_members, Finmap.mem_insert, or_iff_right hself] at hname
      obtain ⟨old, hold⟩ := hserved name (mem_members.mpr hname)
      exact ⟨old, (Finmap.lookup_insert_of_ne _ hself).trans hold⟩

theorem served_removeMember (hserved : g.Served) (proxyName : Bytes) :
    (g.removeMember proxyName).Served := by
  intro name hname
  rw [members_removeMember, Finset.mem_erase] at hname
  obtain ⟨hne, hmember⟩ := hname
  obtain ⟨createConnFn, hlookup⟩ := hserved name hmember
  exact ⟨createConnFn, (Finmap.lookup_erase_ne hne).trans hlookup⟩

theorem Registered.served (hreg : g.Registered) : g.Served := by
  induction hreg with
  | new =>
      intro name hname
      exact absurd hname (Finset.notMem_empty name)
  | found _ _ _ _ _ ih => exact ih
  | addMember hadd _ ih => exact served_addMember ih hadd
  | removeMember proxyName _ ih => exact served_removeMember ih proxyName
  | count index _ ih => exact ih

theorem Listed.card (hlisted : g.Listed) :
    g.members.card = g.pxyNames.length := by
  rw [← hlisted.names, List.toFinset_card_of_nodup hlisted.nodup]

theorem Listed.mem_iff (hlisted : g.Listed) {name : Bytes} :
    name ∈ g.pxyNames ↔ name ∈ g.members := by
  rw [← hlisted.names, List.mem_toFinset]

/-- The conversion of the source is the wrap of the width. -/
theorem toInt_ofNat (n : Nat) : (BitVec.ofNat w.bits n).toInt = w.wrap n := by
  rw [BitVec.toInt_ofNat', Width.two_pow_bits, Width.wrap]

/-- `createConn` calls the function of the member whose turn it is, and has no
result when it is nobody's. -/
theorem createConn_eq (hlen : g.pxyNames ≠ []) (remoteAddr : Bytes) :
    g.createConn w.bits remoteAddr = ({ g with index := g.index + 1 },
      (g.turn w).map fun name =>
        match (g.createFuncs.lookup name).join with
        | none => .error g.noCreateConn
        | some createConnFn => createConnFn remoteAddr) := by
  have hlen' : ¬ g.pxyNames.length = 0 := by simpa using hlen
  have hrem : (w.wrap (g.index + 1).toNat).tmod g.pxyNames.length =
      g.remainder w := rfl
  simp only [createConn, hlen', if_false, toInt_ofNat, hrem, turn]
  by_cases hneg : g.remainder w < 0
  · simp only [hneg, if_true, Option.map_none]
  · simp only [hneg, if_false]
    cases g.pxyNames[(g.remainder w).toNat]? with
    | none => rfl
    | some name =>
        cases hlookup : (g.createFuncs.lookup name).join with
        | none =>
            simp only [Option.map_some, hlookup]
            rfl
        | some createConnFn => simp only [Option.map_some, hlookup]

/-- Only the counter moves. -/
theorem createConn_fst (remoteAddr : Bytes) :
    (g.createConn w.bits remoteAddr).1 = { g with index := g.index + 1 } := by
  unfold createConn
  simp only
  split
  · rfl
  · split
    · rfl
    · split
      · rfl
      · split
        · rfl
        · rfl

theorem after_eq (w : Width) (g : HTTPGroup) (addrs : List Bytes) :
    g.after w addrs =
      { g with index := g.index + UInt64.ofNat addrs.length } := by
  induction addrs generalizing g with
  | nil => simp [after]
  | cons remoteAddr rest ih =>
      rw [after, createConn_fst, ih]
      simp [UInt64.add_comm, UInt64.add_assoc]

/-- The number of a call, as the conversion to `int` finds it. -/
theorem wrap_index (w : Width) (g : HTTPGroup) (addrs : List Bytes) :
    w.wrap ((g.after w addrs).index + 1).toNat =
      w.wrap (g.index.toNat + 1 + addrs.length) := by
  rw [after_eq]
  simp only [UInt64.toNat_add, UInt64.toNat_ofNat', UInt64.toNat_one,
    Nat.mod_add_mod, Nat.add_mod_mod, Width.wrap_mod_two_pow]
  congr 1
  push_cast
  omega

theorem remainder_after (addrs : List Bytes) : (g.after w addrs).remainder w =
    (w.wrap (g.index.toNat + 1 + addrs.length)).tmod g.pxyNames.length := by
  rw [remainder, wrap_index, after_eq]

/-- Where the counter is good for a round, the turns go through `pxyNames` from
some place on. -/
theorem turn_of_countable (hlisted : g.Listed) (hcount : g.Countable w)
    {addrs : List Bytes} (hlen : addrs.length < g.members.card) :
    (g.after w addrs).turn w = (g.pxyNames.rotate
      (w.wrap (g.index.toNat + 1) % g.members.card).toNat)[addrs.length]? := by
  have hpos : 0 < g.members.card := by omega
  have hnames := hlisted.card
  have hrem : (g.after w addrs).remainder w =
      (w.wrap (g.index.toNat + 1) + addrs.length) % g.members.card := by
    rw [remainder_after, ← hnames, tmod_eq_emod (hcount _ hlen),
      Width.wrap_emod_count hcount hlen]
  have hnonneg : ¬ (g.after w addrs).remainder w < 0 := by
    have hemod := Int.emod_nonneg
      (w.wrap (g.index.toNat + 1) + addrs.length)
      (show (g.members.card : Int) ≠ 0 by omega)
    omega
  have hplace : ((g.after w addrs).remainder w).toNat =
      (addrs.length + (w.wrap (g.index.toNat + 1) % g.members.card).toNat) %
        g.pxyNames.length := by
    have hstart := Int.emod_nonneg (w.wrap (g.index.toNat + 1))
      (show (g.members.card : Int) ≠ 0 by omega)
    apply Int.ofNat.inj
    rw [hrem, ← hnames]
    simp only [Int.ofNat_eq_natCast, Int.natCast_emod, Int.natCast_add,
      Int.toNat_of_nonneg hstart, Int.add_emod_emod]
    rw [Int.toNat_of_nonneg (Int.emod_nonneg _ (by omega)), Int.add_comm]
  rw [turn, if_neg hnonneg, hplace, List.getElem?_rotate (hnames ▸ hlen),
    after_eq]

/-- A call that the counter is not good for panics. -/
theorem turn_eq_none (hlisted : g.Listed) {addrs : List Bytes}
    (hneg : w.wrap (g.index.toNat + 1 + addrs.length) < 0)
    (hdvd : ¬ (g.members.card : Int) ∣
      w.wrap (g.index.toNat + 1 + addrs.length)) :
    (g.after w addrs).turn w = none := by
  rw [turn, if_pos]
  rw [remainder_after, ← hlisted.card, tmod_neg_iff]
  exact ⟨hneg, hdvd⟩

/-- The calls that come to a member are answered by it. -/
theorem answered_of_turn (hreg : g.Registered) {addrs : List Bytes}
    {name : Bytes} (hturn : (g.after w addrs).turn w = some name)
    (hmember : name ∈ g.members) (remoteAddr : Bytes) :
    ∃ createConnFn, g.createFuncs.lookup name = some (some createConnFn) ∧
      ((g.after w addrs).createConn w.bits remoteAddr).2 =
        some (createConnFn remoteAddr) := by
  obtain ⟨createConnFn, hlookup⟩ := hreg.served name hmember
  refine ⟨createConnFn, hlookup, ?_⟩
  have hnonempty : (g.after w addrs).pxyNames ≠ [] := by
    rw [after_eq]
    exact List.ne_nil_of_mem (hreg.listed.mem_iff.mpr hmember)
  have hfuncs : (g.after w addrs).createFuncs = g.createFuncs := by
    rw [after_eq]
  rw [createConn_eq hnonempty, hturn, hfuncs, Option.map_some, hlookup]
  rfl

theorem roundRobin_of_countable (hreg : g.Registered) (hcount : g.Countable w)
    {addrs : List Bytes} (hlen : addrs.length = g.members.card) :
    g.RoundRobin w addrs := by
  have hlisted := hreg.listed
  have hturn : ∀ i < addrs.length, (g.after w (addrs.take i)).turn w =
      (g.pxyNames.rotate
        (w.wrap (g.index.toNat + 1) % g.members.card).toNat)[i]? := by
    intro i hi
    have htake : (addrs.take i).length = i := by
      rw [List.length_take]
      omega
    rw [turn_of_countable hlisted hcount (by omega), htake]
  constructor
  · intro i hi
    have hplace : i < (g.pxyNames.rotate (w.wrap (g.index.toNat + 1) %
        g.members.card).toNat).length := by
      rw [List.length_rotate, ← hlisted.card]
      omega
    have hname := (hturn i hi).trans (List.getElem?_eq_getElem hplace)
    have hmember := hlisted.mem_iff.mp
      (List.mem_rotate.mp (List.getElem_mem hplace))
    obtain ⟨createConnFn, hlookup, hresult⟩ :=
      answered_of_turn hreg hname hmember addrs[i]
    exact ⟨_, createConnFn, hname, hmember, hlookup, hresult⟩
  · intro name hname
    have hrotated : name ∈ g.pxyNames.rotate (w.wrap (g.index.toNat + 1) %
        g.members.card).toNat :=
      List.mem_rotate.mpr (hlisted.mem_iff.mpr hname)
    obtain ⟨i, hi, hget⟩ := List.mem_iff_getElem.mp hrotated
    have hplace : i < addrs.length := by
      rw [List.length_rotate, ← hlisted.card] at hi
      omega
    refine ⟨i, ⟨hplace, ?_⟩, ?_⟩
    · rw [hturn i hplace, List.getElem?_eq_getElem hi, hget]
    · rintro j ⟨hj, hother⟩
      rw [hturn j hj] at hother
      obtain ⟨hj', hget'⟩ := List.getElem?_eq_some_iff.mp hother
      exact (List.Nodup.getElem_inj_iff
        (List.nodup_rotate.mpr hlisted.nodup)).mp (hget'.trans hget.symm)

theorem countable_of_roundRobin (hreg : g.Registered) {addrs : List Bytes}
    (hlen : addrs.length = g.members.card) (hround : g.RoundRobin w addrs) :
    g.Countable w := by
  intro i hi
  by_contra hbad
  rw [not_or, Int.not_le] at hbad
  have htake : (addrs.take i).length = i := by
    rw [List.length_take]
    omega
  obtain ⟨name, _, hturn, _⟩ := hround.answered i (by omega)
  rw [turn_eq_none hreg.listed (by rw [htake]; exact hbad.1)
    (by rw [htake]; exact hbad.2)] at hturn
  cases hturn

/-- As many calls as members are a round robin exactly when the counter is good
for all of them. -/
theorem roundRobin_iff_countable (w : Width) {g : HTTPGroup}
    (hreg : g.Registered) {addrs : List Bytes}
    (hlen : addrs.length = g.members.card) :
    g.RoundRobin w addrs ↔ g.Countable w :=
  ⟨countable_of_roundRobin hreg hlen,
    fun hcount => roundRobin_of_countable hreg hcount hlen⟩

/-- Until the numbers of the width run out the counter is good. -/
theorem countable_of_lt (hlt : g.index.toNat + g.members.card < w.half) :
    g.Countable w := by
  intro i hi
  left
  rw [Width.wrap_of_holds ⟨by omega, by omega⟩]
  omega

/-- The group with one more proxy. -/
def addProxy (g : HTTPGroup) (name : Bytes) : HTTPGroup :=
  { g with
    createFuncs := g.createFuncs.insert name (some (proxyConn name))
    pxyNames := g.pxyNames ++ [name] }

theorem Registered.addProxy (hreg : g.Registered) {name : Bytes}
    (hnew : name ∉ g.createFuncs) : (g.addProxy name).Registered := by
  have hadd : g.addMember name (some (proxyConn name)) =
      .ok (g.addProxy name) := by
    rw [HTTPGroup.addMember, if_neg hnew]
    rfl
  exact .addMember hadd hreg

/-- Three proxies in a group whose counter stands at `index`. -/
def trio (index : UInt64) : HTTPGroup :=
  { ((newHTTPGroup.addProxy (ascii "a")).addProxy (ascii "b")).addProxy
      (ascii "c") with
    index := index }

theorem registered_trio (index : UInt64) : (trio index).Registered :=
  .count index (((Registered.new.addProxy (by decide)).addProxy
    (by decide)).addProxy (by decide))

theorem length_trio (index : UInt64) :
    ([[], [], []] : List Bytes).length = (trio index).members.card := rfl

theorem roundRobin_iff_countable_trio :
    (trio 0).RoundRobin .bits64 [[], [], []] :=
  (roundRobin_iff_countable .bits64 (registered_trio 0)
    (length_trio 0)).mpr (by decide)

/-- With three members, the call that counts past the largest `int` panics. -/
theorem not_roundRobin_pastLargest :
    ¬ (trio 2147483647).RoundRobin .bits32 [[], [], []] ∧
      ¬ (trio 9223372036854775807).RoundRobin .bits64 [[], [], []] := by
  constructor
  · intro hround
    have hcount := countable_of_roundRobin (registered_trio _) (length_trio _)
      hround
    exact absurd hcount (by decide)
  · intro hround
    have hcount := countable_of_roundRobin (registered_trio _) (length_trio _)
      hround
    exact absurd hcount (by decide)

end HTTPGroup

end Frp
