/-
  Documents: dictionaries with string keys and JSON-like values.

  A dictionary is the list of its items in insertion order. `get` is Python's `d.get(k)`
  (a missing key reads as `null`), `set` is `d[k] = v`, `update` is `d.update(e)`, `project`
  and `dropKeys` keep or remove a list of keys.

  A document split over the columns and the blob of a table row is read back by updating
  the blob with the columns (`Row.toDoc`). `get_toDoc_ofDoc`: such a round trip keeps the
  value of every key that is not derived on read.

  A JSON text is kept as the value that it parses to. `dump` is the trip through it: it
  turns date-times into their texts and leaves the rest (`dump_of_not_hasTime`). `zoned` sets
  or drops the time zones of date-times; both are cases of `mapTimes`.
-/
import Mathlib.Logic.Basic

namespace Documents

/-- A date-time: its instant, and whether it carries a time zone. The two kinds are never
    equal. -/
structure DateTime where
  instant : Int
  aware : Bool
  deriving DecidableEq, Repr

/-- An instant, with a time zone. -/
instance : Coe Int DateTime := ⟨fun t => ⟨t, true⟩⟩

instance (n : Nat) : OfNat DateTime n := ⟨⟨n, true⟩⟩

/-- A JSON-like value; `time` is a date-time. `timeText sep t` is the string
    `t.isoformat(sep)`, and `str` any other string. -/
inductive Value where
  | null
  | bool (b : Bool)
  | int (i : Int)
  | float (q : Rat)
  | str (s : String)
  | time (t : DateTime)
  | timeText (sep : Char) (t : DateTime)
  | list (vs : List Value)
  | dict (kvs : List (String × Value))

abbrev Doc := List (String × Value)

/-- Python's truth value of a value, as `value or default` tests it. -/
def Value.truthy : Value → Bool
  | .null => false
  | .bool b => b
  | .int i => i != 0
  | .float q => q != 0
  | .str s => s != ""
  | .time _ => true
  | .timeText _ _ => true
  | .list vs => !vs.isEmpty
  | .dict kvs => !kvs.isEmpty

/-- Equality with a string, as a store's filter compares. -/
def Value.isStr (v : Value) (s : String) : Bool :=
  match v with
  | .str t => t == s
  | _ => false

/-- Python's `value or default`. -/
def Value.orElse (v default : Value) : Value := if v.truthy then v else default

namespace Doc

def get (d : Doc) (k : String) : Value := (d.lookup k).getD .null

/-- `d[k]`; `none` is `KeyError`. -/
def item (d : Doc) (k : String) : Option Value := d.lookup k

/-- `d.get(k, default)`. -/
def getDefault (d : Doc) (k : String) (default : Value) : Value := (d.lookup k).getD default

def keys (d : Doc) : List String := d.map (·.1)

def set : Doc → String → Value → Doc
  | [], k, v => [(k, v)]
  | (k', v') :: d, k, v => if k' = k then (k, v) :: d else (k', v') :: set d k v

def update (d e : Doc) : Doc := e.foldl (fun d kv => set d kv.1 kv.2) d

def project (d : Doc) (ks : List String) : Doc := d.filter fun kv => kv.1 ∈ ks

def dropKeys (d : Doc) (ks : List String) : Doc := d.filter fun kv => kv.1 ∉ ks

/-! ## Items: absent keys apart from null ones -/

theorem item_cons_self (d : Doc) (k : String) (v : Value) : item ((k, v) :: d) k = some v := by
  simp [item]

theorem item_cons_of_ne (d : Doc) {k k' : String} (h : k' ≠ k) (v : Value) :
    item ((k', v) :: d) k = item d k := by
  have hb : (k == k') = false := by simpa using Ne.symm h
  simp [item, List.lookup_cons, hb]

theorem item_eq_none_iff {d : Doc} {k : String} : item d k = none ↔ k ∉ keys d := by
  induction d with
  | nil => simp [item, keys]
  | cons kv d ih =>
      obtain ⟨k', v'⟩ := kv
      by_cases hk : k' = k
      · subst hk
        simp [item_cons_self, keys]
      · rw [item_cons_of_ne _ hk, ih]
        simp [keys, Ne.symm hk]

theorem item_set_self (d : Doc) (k : String) (v : Value) : item (set d k v) k = some v := by
  induction d with
  | nil => exact item_cons_self [] k v
  | cons kv d ih =>
      unfold set
      split
      · exact item_cons_self d k v
      · rename_i h
        rw [item_cons_of_ne _ h]
        exact ih

theorem item_set_of_ne (d : Doc) {k k' : String} (h : k' ≠ k) (v : Value) :
    item (set d k' v) k = item d k := by
  induction d with
  | nil => exact item_cons_of_ne [] h v
  | cons kv d ih =>
      obtain ⟨k₀, v₀⟩ := kv
      unfold set
      split
      · rename_i h₀
        rw [item_cons_of_ne _ h, item_cons_of_ne _ (h₀ ▸ h)]
      · by_cases h₁ : k₀ = k
        · subst h₁
          rw [item_cons_self, item_cons_self]
        · rw [item_cons_of_ne _ h₁, item_cons_of_ne _ h₁, ih]

theorem item_set (d : Doc) (k k' : String) (v : Value) :
    item (set d k' v) k = if k' = k then some v else item d k := by
  split
  · rename_i h
    rw [h, item_set_self]
  · rename_i h
    exact item_set_of_ne d h v

theorem set_set (d : Doc) (k : String) (v w : Value) : set (set d k v) k w = set d k w := by
  induction d with
  | nil => simp [set]
  | cons kv d ih =>
      obtain ⟨k', v'⟩ := kv
      by_cases h : k' = k
      · simp [set, h]
      · simp [set, h, ih]

theorem item_update_of_not_mem {d e : Doc} {k : String} (h : k ∉ keys e) :
    item (update d e) k = item d k := by
  induction e generalizing d with
  | nil => rfl
  | cons kv e ih =>
      simp only [keys, List.map_cons, List.mem_cons, not_or] at h
      exact (ih h.2).trans (item_set_of_ne d (Ne.symm h.1) kv.2)

/-- An update with distinct keys: the new item if there is one, else the old. -/
theorem item_update {e : Doc} (hn : (keys e).Nodup) (d : Doc) (k : String) :
    item (update d e) k = (item e k).or (item d k) := by
  induction e generalizing d with
  | nil => rfl
  | cons kv e ih =>
      obtain ⟨k', v'⟩ := kv
      simp only [keys, List.map_cons, List.nodup_cons] at hn
      change item (update (set d k' v') e) k = _
      by_cases hk : k' = k
      · subst hk
        rw [item_update_of_not_mem hn.1, item_set_self, item_cons_self, Option.some_or]
      · rw [ih hn.2, item_cons_of_ne _ hk, item_set_of_ne _ hk]

theorem item_filter {d : Doc} {p : String → Bool} (k : String) :
    item (d.filter fun kv => p kv.1) k = if p k then item d k else none := by
  induction d with
  | nil => simp [item]
  | cons kv d ih =>
      obtain ⟨k', v'⟩ := kv
      by_cases hk : k' = k
      · subst hk
        cases hp : p k' with
        | true => simp [hp, item_cons_self]
        | false =>
            rw [List.filter_cons_of_neg (by simp [hp]), ih]
            simp [hp]
      · rw [item_cons_of_ne _ hk, ← ih]
        cases hp : p k' with
        | true => rw [List.filter_cons_of_pos (by simpa using hp), item_cons_of_ne _ hk]
        | false => rw [List.filter_cons_of_neg (by simp [hp])]

theorem item_dropKeys (d : Doc) (ks : List String) (k : String) :
    item (dropKeys d ks) k = if k ∈ ks then none else item d k := by
  have h := item_filter (d := d) (p := fun k => decide (k ∉ ks)) k
  unfold dropKeys
  rw [h]
  by_cases hk : k ∈ ks <;> simp [hk]

theorem item_map_values (f : Value → Value) (d : Doc) (k : String) :
    item (d.map fun kv => (kv.1, f kv.2)) k = (item d k).map f := by
  induction d with
  | nil => rfl
  | cons kv d ih =>
      obtain ⟨k', v'⟩ := kv
      by_cases hk : k' = k
      · subst hk
        rw [List.map_cons, item_cons_self, item_cons_self, Option.map_some]
      · rw [List.map_cons, item_cons_of_ne _ hk, item_cons_of_ne _ hk, ih]

theorem item_map_columns (f : String → Value) (ks : List String) (k : String) :
    item (ks.map fun c => (c, f c)) k = if k ∈ ks then some (f k) else none := by
  induction ks with
  | nil => rfl
  | cons c ks ih =>
      by_cases hc : c = k
      · subst hc
        simp [item_cons_self]
      · rw [List.map_cons, item_cons_of_ne _ hc, ih]
        simp [Ne.symm hc]

/-- Columns laid over a document: they are the truth for the keys they hold. -/
theorem item_overlay {ks : List String} (hn : ks.Nodup) (f : String → Value) (d : Doc)
    (k : String) :
    item (update d (ks.map fun c => (c, f c))) k =
      if k ∈ ks then some (f k) else item d k := by
  have hkeys : keys (ks.map fun c => (c, f c)) = ks := by simp [keys, Function.comp_def]
  rw [item_update (by rw [hkeys]; exact hn), item_map_columns]
  split <;> rfl

theorem keys_map_values (f : Value → Value) (d : Doc) :
    keys (d.map fun kv => (kv.1, f kv.2)) = keys d := by
  simp [keys, Function.comp_def]

theorem keys_dropKeys_sublist (d : Doc) (ks : List String) :
    (keys (dropKeys d ks)).Sublist (keys d) :=
  List.filter_sublist.map _

/-! ## Values: a missing key reads as null -/

theorem get_eq_item (d : Doc) (k : String) : get d k = (item d k).getD .null := rfl

theorem all_item_of_get {d : Doc} {k : String} {p : Value → Bool} (h : p (get d k) = true) :
    (item d k).all p = true := by
  rw [get_eq_item] at h
  cases hk : item d k with
  | none => rfl
  | some v => simpa [hk] using h

theorem item_of_get {d : Doc} {k : String} {v : Value} (h : get d k = v) (hv : v ≠ .null) :
    item d k = some v := by
  unfold get at h
  unfold item
  cases hl : d.lookup k with
  | none =>
      rw [hl] at h
      exact absurd h.symm hv
  | some w =>
      rw [hl] at h
      exact congrArg some h

theorem getDefault_of_get {d : Doc} {k : String} {v : Value} (h : get d k = v)
    (hv : v ≠ .null) (default : Value) : getDefault d k default = v := by
  have hi := item_of_get h hv
  unfold item at hi
  rw [getDefault, hi, Option.getD_some]

theorem get_set_of_ne (d : Doc) {k k' : String} (h : k' ≠ k) (v : Value) :
    get (set d k' v) k = get d k := by
  rw [get_eq_item, item_set_of_ne d h, get_eq_item]

/-- An update leaves the keys it does not name. -/
theorem get_update_of_not_mem {d e : Doc} {k : String} (h : k ∉ keys e) :
    get (update d e) k = get d k := by
  rw [get_eq_item, item_update_of_not_mem h, get_eq_item]

theorem get_update {e : Doc} (hn : (keys e).Nodup) (d : Doc) (k : String) :
    get (update d e) k = (item e k).getD (get d k) := by
  rw [get_eq_item, item_update hn]
  cases item e k with
  | none => rfl
  | some v => rfl

/-- An update gives a key it names once the value it names for it. -/
theorem get_update_of_mem {d e : Doc} {k : String} (hn : (keys e).Nodup) (h : k ∈ keys e) :
    get (update d e) k = get e k := by
  obtain ⟨v, hv⟩ := Option.ne_none_iff_exists'.mp (mt item_eq_none_iff.mp (not_not.mpr h))
  rw [get_update hn, get_eq_item e, hv]
  rfl

theorem get_filter_of_keep {d : Doc} {p : String → Bool} {k : String} (h : p k = true) :
    get (d.filter fun kv => p kv.1) k = get d k := by
  rw [get_eq_item, item_filter, if_pos h, get_eq_item]

theorem get_project {d : Doc} {ks : List String} {k : String} (h : k ∈ ks) :
    get (project d ks) k = get d k :=
  get_filter_of_keep (p := fun k => k ∈ ks) (by simpa using h)

theorem get_dropKeys {d : Doc} {ks : List String} {k : String} (h : k ∉ ks) :
    get (dropKeys d ks) k = get d k :=
  get_filter_of_keep (p := fun k => k ∉ ks) (by simpa using h)

theorem get_map_columns (f : String → Value) {ks : List String} {k : String} (h : k ∈ ks) :
    get (ks.map fun c => (c, f c)) k = f k := by
  rw [get_eq_item, item_map_columns, if_pos h, Option.getD_some]

end Doc

/-! ## Rows: promoted columns and a blob -/

/-- A table row: its promoted columns, and the rest of the document as a blob. -/
structure Row where
  columns : Doc
  blob : Doc

/-- Split a document: `promoted` keys become columns, `derived` keys are dropped. -/
def Row.ofDoc (promoted derived : List String) (d : Doc) : Row where
  columns := promoted.map fun c => (c, d.get c)
  blob := d.dropKeys (promoted ++ derived)

/-- Rebuild the document: the columns are the truth for the keys they hold. -/
def Row.toDoc (r : Row) : Doc := r.blob.update r.columns

/-- Set columns and merge keys into the blob, as an `UPDATE` statement does. -/
def Row.assign (r : Row) (columns blob : Doc) : Row where
  columns := r.columns.update columns
  blob := r.blob.update blob

theorem keys_ofDoc_columns (promoted derived : List String) (d : Doc) :
    (Row.ofDoc promoted derived d).columns.keys = promoted := by
  simp [Row.ofDoc, Doc.keys, Function.comp_def]

/-- A document split into a row and read back keeps every key that is not derived. -/
theorem get_toDoc_ofDoc {promoted derived : List String} (hn : promoted.Nodup) (d : Doc)
    {k : String} (hk : k ∉ derived) : (Row.ofDoc promoted derived d).toDoc.get k = d.get k := by
  unfold Row.toDoc
  by_cases hc : k ∈ promoted
  · rw [Doc.get_update_of_mem (by rw [keys_ofDoc_columns]; exact hn)
      (by rw [keys_ofDoc_columns]; exact hc)]
    exact Doc.get_map_columns _ hc
  · rw [Doc.get_update_of_not_mem (by rw [keys_ofDoc_columns]; exact hc)]
    refine Doc.get_dropKeys ?_
    rw [List.mem_append]
    exact fun h => h.elim hc hk

theorem Doc.keys_set_of_mem {d : Doc} {k : String} (h : k ∈ d.keys) (v : Value) :
    (d.set k v).keys = d.keys := by
  induction d with
  | nil => cases h
  | cons kv d ih =>
      obtain ⟨k', v'⟩ := kv
      unfold Doc.set
      split
      · rename_i hk
        simp [Doc.keys, hk]
      · rename_i hk
        simp only [Doc.keys, List.map_cons, List.mem_cons] at h ih ⊢
        rcases h with h | h
        · exact absurd h.symm hk
        · rw [ih h]

theorem Doc.keys_update_of_subset {d e : Doc} (h : ∀ k ∈ e.keys, k ∈ d.keys) :
    (d.update e).keys = d.keys := by
  induction e generalizing d with
  | nil => rfl
  | cons kv e ih =>
      have hk : kv.1 ∈ d.keys := h _ (List.mem_cons_self ..)
      have hset := Doc.keys_set_of_mem hk kv.2
      change ((d.set kv.1 kv.2).update e).keys = _
      rw [ih, hset]
      intro k hke
      rw [hset]
      exact h k (List.mem_cons_of_mem _ hke)

/-- An assignment leaves the keys that it names neither as column nor in the blob. -/
theorem get_toDoc_assign {r : Row} {columns blob : Doc} (hn : r.columns.keys.Nodup)
    (hsub : ∀ k ∈ columns.keys, k ∈ r.columns.keys) {k : String} (hc : k ∉ columns.keys)
    (hb : k ∉ blob.keys) : (r.assign columns blob).toDoc.get k = r.toDoc.get k := by
  have hkeys := Doc.keys_update_of_subset hsub
  unfold Row.toDoc Row.assign
  by_cases hk : k ∈ r.columns.keys
  · rw [Doc.get_update_of_mem (hkeys ▸ hn) (hkeys ▸ hk), Doc.get_update_of_mem hn hk,
      Doc.get_update_of_not_mem hc]
  · rw [Doc.get_update_of_not_mem (hkeys ▸ hk), Doc.get_update_of_not_mem hk,
      Doc.get_update_of_not_mem hb]

/-- The document of the keys that have a value. -/
def Doc.ofOptions (kvs : List (String × Option Value)) : Doc :=
  kvs.filterMap fun kv => kv.2.map fun v => (kv.1, v)

theorem Doc.keys_ofOptions_sublist (kvs : List (String × Option Value)) :
    (Doc.ofOptions kvs).keys.Sublist (kvs.map (·.1)) := by
  induction kvs with
  | nil => exact List.Sublist.refl _
  | cons kv kvs ih =>
      obtain ⟨k, v⟩ := kv
      cases v with
      | none => exact ih.cons _
      | some v => exact ih.cons_cons _

theorem Doc.item_ofOptions {kvs : List (String × Option Value)} (hn : (kvs.map (·.1)).Nodup)
    {k : String} {v : Option Value} (h : (k, v) ∈ kvs) : (Doc.ofOptions kvs).item k = v := by
  induction kvs with
  | nil => cases h
  | cons kv kvs ih =>
      obtain ⟨k', v'⟩ := kv
      rw [List.map_cons, List.nodup_cons] at hn
      by_cases hk : k' = k
      · subst hk
        have hv : v = v' := by
          rcases List.mem_cons.mp h with heq | hm
          · exact (Prod.mk.inj heq).2
          · exact absurd (List.mem_map.mpr ⟨_, hm, Eq.refl k'⟩) hn.1
        subst hv
        cases v with
        | some v => exact Doc.item_cons_self _ _ _
        | none =>
            rw [Doc.item_eq_none_iff]
            exact fun hm => hn.1 ((Doc.keys_ofOptions_sublist kvs).subset hm)
      · have hm : (k, v) ∈ kvs := (List.mem_cons.mp h).resolve_left fun heq =>
          hk (Prod.mk.inj heq).1.symm
        cases v' with
        | none => exact ih hn.2 hm
        | some v' => exact (Doc.item_cons_of_ne _ hk _).trans (ih hn.2 hm)

/-- A dictionary proper: no key twice. -/
structure Dict where
  items : Doc
  nodup : items.keys.Nodup

/-! ## Date-times inside a value, and JSON texts -/

mutual

/-- The value with every date-time in it replaced. -/
def Value.mapTimes (f : DateTime → Value) : Value → Value
  | .null => .null
  | .bool b => .bool b
  | .int i => .int i
  | .float q => .float q
  | .str s => .str s
  | .time t => f t
  | .timeText sep t => .timeText sep t
  | .list vs => .list (mapTimesList f vs)
  | .dict kvs => .dict (mapTimesItems f kvs)

def mapTimesList (f : DateTime → Value) : List Value → List Value
  | [] => []
  | v :: vs => v.mapTimes f :: mapTimesList f vs

def mapTimesItems (f : DateTime → Value) : List (String × Value) → List (String × Value)
  | [] => []
  | (k, v) :: kvs => (k, v.mapTimes f) :: mapTimesItems f kvs

end

mutual

/-- A date-time occurs in the value, so an encoder without a default raises. -/
def Value.hasTime : Value → Bool
  | .time _ => true
  | .list vs => hasTimeList vs
  | .dict kvs => hasTimeItems kvs
  | _ => false

def hasTimeList : List Value → Bool
  | [] => false
  | v :: vs => v.hasTime || hasTimeList vs

def hasTimeItems : List (String × Value) → Bool
  | [] => false
  | (_, v) :: kvs => v.hasTime || hasTimeItems kvs

end

section MapTimes

variable (f : DateTime → Value)

mutual

/-- A value without date-times stays as it was. -/
theorem Value.mapTimes_of_not_hasTime :
    ∀ v : Value, v.hasTime = false → v.mapTimes f = v
  | .null, _ | .bool _, _ | .int _, _ | .float _, _ | .str _, _ | .timeText _ _, _ => rfl
  | .time _, h => nomatch h
  | .list vs, h => by rw [Value.mapTimes, mapTimesList_of_not_hasTime vs h]
  | .dict kvs, h => by rw [Value.mapTimes, mapTimesItems_of_not_hasTime kvs h]

theorem mapTimesList_of_not_hasTime :
    ∀ vs : List Value, hasTimeList vs = false → mapTimesList f vs = vs
  | [], _ => rfl
  | v :: vs, h => by
      simp only [hasTimeList, Bool.or_eq_false_iff] at h
      rw [mapTimesList, Value.mapTimes_of_not_hasTime v h.1, mapTimesList_of_not_hasTime vs h.2]

theorem mapTimesItems_of_not_hasTime :
    ∀ kvs : List (String × Value), hasTimeItems kvs = false → mapTimesItems f kvs = kvs
  | [], _ => rfl
  | (k, v) :: kvs, h => by
      simp only [hasTimeItems, Bool.or_eq_false_iff] at h
      rw [mapTimesItems, Value.mapTimes_of_not_hasTime v h.1,
        mapTimesItems_of_not_hasTime kvs h.2]

end

variable {f} {b : Bool}

mutual

/-- Date-times are left as far as the replacements hold some. -/
theorem Value.hasTime_mapTimes (h : ∀ t, (f t).hasTime = b) :
    ∀ v : Value, (v.mapTimes f).hasTime = (b && v.hasTime)
  | .null | .bool _ | .int _ | .float _ | .str _ | .timeText _ _ => by
      simp [Value.mapTimes, Value.hasTime]
  | .time t => by simp [Value.mapTimes, Value.hasTime, h t]
  | .list vs => hasTimeList_mapTimes h vs
  | .dict kvs => hasTimeItems_mapTimes h kvs

theorem hasTimeList_mapTimes (h : ∀ t, (f t).hasTime = b) :
    ∀ vs : List Value, hasTimeList (mapTimesList f vs) = (b && hasTimeList vs)
  | [] => by simp [mapTimesList, hasTimeList]
  | v :: vs => by
      rw [mapTimesList, hasTimeList, Value.hasTime_mapTimes h v, hasTimeList_mapTimes h vs,
        hasTimeList, Bool.and_or_distrib_left]

theorem hasTimeItems_mapTimes (h : ∀ t, (f t).hasTime = b) :
    ∀ kvs : List (String × Value), hasTimeItems (mapTimesItems f kvs) = (b && hasTimeItems kvs)
  | [] => by simp [mapTimesItems, hasTimeItems]
  | (k, v) :: kvs => by
      rw [mapTimesItems, hasTimeItems, Value.hasTime_mapTimes h v, hasTimeItems_mapTimes h kvs,
        hasTimeItems, Bool.and_or_distrib_left]

end

theorem mapTimesItems_eq_map (f : DateTime → Value) (d : Doc) :
    mapTimesItems f d = d.map fun kv => (kv.1, kv.2.mapTimes f) := by
  induction d with
  | nil => rfl
  | cons kv d ih => exact congrArg _ ih

theorem Value.mapTimes_eq_null_iff (h : ∀ t, f t ≠ .null) {v : Value} :
    v.mapTimes f = .null ↔ v = .null := by
  cases v <;> simp [Value.mapTimes, h]

end MapTimes

/-- The value with a time zone on all date-times in it, or on none. -/
def Value.zoned (aware : Bool) (v : Value) : Value :=
  v.mapTimes fun t => .time ⟨t.instant, aware⟩

theorem Value.hasTime_zoned (aware : Bool) (v : Value) : (v.zoned aware).hasTime = v.hasTime :=
  Value.hasTime_mapTimes (b := true) (fun _ => rfl) v

theorem Value.zoned_of_not_hasTime (aware : Bool) {v : Value} (h : v.hasTime = false) :
    v.zoned aware = v :=
  Value.mapTimes_of_not_hasTime _ v h

theorem Value.zoned_eq_null_iff {aware : Bool} {v : Value} :
    v.zoned aware = .null ↔ v = .null :=
  Value.mapTimes_eq_null_iff (by simp)

def Doc.zoned (aware : Bool) (d : Doc) : Doc := d.map fun kv => (kv.1, kv.2.zoned aware)

theorem Doc.item_zoned (aware : Bool) (d : Doc) (k : String) :
    (d.zoned aware).item k = (d.item k).map (Value.zoned aware) :=
  Doc.item_map_values (Value.zoned aware) d k

theorem Doc.get_zoned (aware : Bool) (d : Doc) (k : String) :
    (d.zoned aware).get k = (d.get k).zoned aware := by
  rw [Doc.get_eq_item, Doc.item_zoned, Doc.get_eq_item]
  cases d.item k <;> rfl

/-- The value read back from the JSON text of a value, where the encoder writes a date-time
    as `isoformat(sep)`. -/
def Value.dump (sep : Char) (v : Value) : Value := v.mapTimes (.timeText sep)

/-- A value without date-times is read back as it was. -/
theorem Value.dump_of_not_hasTime (sep : Char) (v : Value) (h : v.hasTime = false) :
    v.dump sep = v :=
  Value.mapTimes_of_not_hasTime _ v h

/-- What was read back from a JSON text holds no date-time. -/
theorem Value.hasTime_dump (sep : Char) (v : Value) : (v.dump sep).hasTime = false :=
  Value.hasTime_mapTimes (b := false) (fun _ => rfl) v

theorem Value.dump_dump (sep sep' : Char) (v : Value) : (v.dump sep').dump sep = v.dump sep' :=
  Value.dump_of_not_hasTime sep _ (Value.hasTime_dump sep' v)

theorem Value.truthy_dump (sep : Char) (v : Value) : (v.dump sep).truthy = v.truthy := by
  cases v with
  | list vs => cases vs <;> rfl
  | dict kvs => cases kvs <;> rfl
  | _ => rfl

theorem Value.dump_eq_null_iff {sep : Char} {v : Value} : v.dump sep = .null ↔ v = .null :=
  Value.mapTimes_eq_null_iff (by simp)

theorem Value.dump_eq_str_iff {sep : Char} {v : Value} {s : String} :
    v.dump sep = .str s ↔ v = .str s := by
  cases v <;> simp [Value.dump, Value.mapTimes]

/-- The document read back from its JSON text. -/
def Doc.dump (sep : Char) (d : Doc) : Doc := d.map fun kv => (kv.1, kv.2.dump sep)

theorem Value.dump_dict (sep : Char) (d : Doc) : (Value.dict d).dump sep = .dict (d.dump sep) :=
  congrArg Value.dict (mapTimesItems_eq_map (.timeText sep) d)

theorem Doc.mem_of_item {d : Doc} {k : String} {v : Value} (h : d.item k = some v) :
    (k, v) ∈ d := by
  obtain ⟨l₁, l₂, rfl, -⟩ := List.lookup_eq_some_iff.mp h
  exact List.mem_append_right _ (List.mem_cons_self ..)

/-- No dictionary is an item of itself. -/
theorem Doc.item_ne_self (d : Doc) (k : String) : d.item k ≠ some (.dict d) := by
  intro h
  have hmem : (k, Value.dict d) ∈ d := Doc.mem_of_item h
  have hlt := List.sizeOf_lt_of_mem hmem
  simp at hlt
  omega

theorem Doc.item_dump (sep : Char) (d : Doc) (k : String) :
    (d.dump sep).item k = (d.item k).map (Value.dump sep) :=
  Doc.item_map_values (Value.dump sep) d k

end Documents
