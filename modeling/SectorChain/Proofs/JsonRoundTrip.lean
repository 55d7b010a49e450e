import SectorChain.Lib.Dict
import SectorChain.Util.StreamableJson

/-!
# JSON round trips

Reading an `Optional` takes every value that Python regards as false for an absent one.
-/

namespace SectorChain.Proofs

open Lib List

section

variable (U : Unhashables)

mutual
/-- The fields of every class have different names. -/
def Named : JType → Prop
  | .optional inner => Named inner
  | .list inner => Named inner
  | .tuple items => NamedAll items
  | .streamable fields => fields.names.Nodup ∧ NamedAll fields
  | _ => True

def NamedAll : JTypes → Prop
  | .nil => True
  | .cons _ head tail => Named head ∧ NamedAll tail
end

def KeptOptional {α : Type} (jsonify : α → Json) (Kept : α → Prop) : Option α → Prop
  | none => True
  | some item => (jsonify item).truthy = true ∧ Kept item

mutual
/-- No present optional part has a JSON value that is regarded as false. -/
def Kept : (t : JType) → JValue U t → Prop
  | .optional inner, item => KeptOptional (recurseJsonify U inner) (Kept inner) item
  | .list inner, item => List.Forall (Kept inner) item
  | .tuple items, item => KeptAll items item
  | .streamable fields, item => KeptAll fields item
  | _, _ => True

def KeptAll : (ts : JTypes) → JValues U ts → Prop
  | .nil, _ => True
  | .cons _ head tail, items => Kept head items.1 ∧ KeptAll tail items.2
end

variable {U} {conv : Conversions}

lemma bytesFrom_hexText (bs : Bytes) : bytesFrom (hexText bs) = .ok bs := by
  exact fromhex_hexStr bs

lemma mapM_map_eq_ok {α β : Type} {f : β → Except PyError α} {g : α → β} {l : List α} :
    (l.map g).mapM f = .ok l ↔ l.Forall fun a => f (g a) = .ok a := by
  induction l with
  | nil => simp
  | cons a l ih =>
    rw [map_cons, mapM_cons, forall_cons, ← ih, bind_eq_ok]
    constructor
    · rintro ⟨b, hb, h⟩
      obtain ⟨bs, hbs, h⟩ := bind_eq_ok.mp h
      obtain ⟨rfl, rfl⟩ := List.cons.inj (Except.ok.inj h)
      exact ⟨hb, hbs⟩
    · rintro ⟨ha, hl⟩
      exact ⟨a, ha, by rw [hl]; rfl⟩

lemma pair_eq_ok {α β : Type} {x : Except PyError α} {y : Except PyError β} {p : α × β} :
    (do return (← x, ← y)) = Except.ok p ↔ x = .ok p.1 ∧ y = .ok p.2 := by
  cases x <;> cases y <;> simp [Prod.ext_iff]

lemma names_jsonifyFields : (ts : JTypes) → (items : JValues U ts) →
    (jsonifyFields U ts items).map Prod.fst = ts.names
  | .nil, _ => rfl
  | .cons name _ tail, items => congrArg (name :: ·) (names_jsonifyFields tail items.2)

mutual
lemma dataclassFromDict_recurseJsonify : (t : JType) → Named t → (item : JValue U t) →
    (dataclassFromDict U conv t (recurseJsonify U t item) = .ok item ↔ Kept U t item)
  | .bool, _, _ => iff_of_true rfl trivial
  | .str, _, _ => iff_of_true rfl trivial
  | .int k, _, item => by
    refine iff_of_true ?_ trivial
    exact dif_pos ⟨item.min_le, item.le_max⟩
  | .sizedBytes size, _, item => by
    refine iff_of_true ?_ trivial
    change (bytesFrom (hexText item.toBytes) >>= SizedBytes.ofBytes size) = .ok item
    rw [bytesFrom_hexText]
    exact dif_pos item.length_eq
  | .bytes, _, item => iff_of_true (bytesFrom_hexText item) trivial
  | .unhashable k, _, item => by
    refine iff_of_true ?_ trivial
    change (bytesFrom (hexText (U.toBytes item)) >>= U.fromBytes k) = .ok item
    rw [bytesFrom_hexText]
    exact U.fromBytes_toBytes item
  | .optional inner, hnamed, none => iff_of_true rfl trivial
  | .optional inner, hnamed, some item => by
    have ih := dataclassFromDict_recurseJsonify inner hnamed item
    change (if (recurseJsonify U inner item).truthy then
      some <$> dataclassFromDict U conv inner (recurseJsonify U inner item) else .ok none) =
        .ok (some item) ↔ (recurseJsonify U inner item).truthy = true ∧ Kept U inner item
    split
    · rename_i htruthy
      rw [map_eq_ok, ← ih]
      simp [htruthy]
    · rename_i hfalsy
      exact iff_of_false nofun fun h => hfalsy h.1
  | .list inner, hnamed, item => by
    have hkept : (fun v => dataclassFromDict U conv inner (recurseJsonify U inner v) = .ok v) = Kept U inner :=
      funext fun v => propext (dataclassFromDict_recurseJsonify inner hnamed v)
    exact mapM_map_eq_ok.trans (iff_of_eq (congrArg (List.Forall · item) hkept))
  | .tuple items, hnamed, item => itemsFrom_jsonifyFields items hnamed item
  | .streamable fields, hnamed, item => by
    have hnames := names_jsonifyFields fields item
    have hall : ((jsonifyFields U fields item).all fun e => e.1 ∈ fields.names) = true := by
      rw [all_eq_true]
      intro e he
      rw [decide_eq_true_iff, ← hnames]
      exact mem_map_of_mem he
    change (if (jsonifyFields U fields item).all fun e => e.1 ∈ fields.names then
      fieldsFrom U conv fields (jsonifyFields U fields item) else .error .keyError) = _ ↔ _
    rw [if_pos hall]
    refine fieldsFrom_jsonifyFields fields hnamed.2 item _ fun e he => ?_
    convert (Dict.mem_iff_lookup (hnames ▸ hnamed.1)).mp he

lemma itemsFrom_jsonifyFields : (ts : JTypes) → NamedAll ts → (items : JValues U ts) →
    (itemsFrom U conv ts ((jsonifyFields U ts items).map Prod.snd) = .ok items ↔ KeptAll U ts items)
  | .nil, _, _ => iff_of_true rfl trivial
  | .cons _ head tail, hnamed, items => pair_eq_ok.trans (and_congr
    (dataclassFromDict_recurseJsonify head hnamed.1 items.1)
    (itemsFrom_jsonifyFields tail hnamed.2 items.2))

lemma fieldsFrom_jsonifyFields : (ts : JTypes) → NamedAll ts → (items : JValues U ts) →
    (entries : List (PyStr × Json)) →
    (∀ e ∈ jsonifyFields U ts items, entries.lookup e.1 = some e.2) →
    (fieldsFrom U conv ts entries = .ok items ↔ KeptAll U ts items)
  | .nil, _, _, _, _ => iff_of_true rfl trivial
  | .cons name head tail, hnamed, items, entries, hentries => by
    have hhead : entries.lookup name = some (recurseJsonify U head items.1) := hentries (name, _) mem_cons_self
    have htail := fieldsFrom_jsonifyFields tail hnamed.2 items.2 entries fun e he =>
      hentries e (mem_cons_of_mem _ he)
    rw [fieldsFrom, hhead]
    exact pair_eq_ok.trans (and_congr (dataclassFromDict_recurseJsonify head hnamed.1 items.1) htail)
end

variable (U conv)

/-- A value comes back from its JSON exactly if no present optional part is false to Python. -/
theorem from_to_json_dict_iff (fields : JTypes) (hnamed : Named (.streamable fields)) (x : JValues U fields) :
    fromJsonDict U conv fields (toJsonDict U fields x) = .ok x ↔ Kept U (.streamable fields) x :=
  dataclassFromDict_recurseJsonify (.streamable fields) hnamed x

end

def plainUnhashables : Unhashables := ⟨fun _ => Bytes, id, fun _ => .ok, fun _ => rfl⟩

def noConversions : Conversions := ⟨fun _ => .error .valueError, fun _ => []⟩

def sampleFields : JTypes :=
  .cons [0] (.optional (.int .uint8)) (.cons [1] (.list (.unhashable .SerializedProgram)) .nil)

def sampleInstance (n : FixedInt .uint8) : JValues plainUnhashables sampleFields :=
  (some n, [[1, 2], []], ())

theorem from_to_json_dict_five : fromJsonDict plainUnhashables noConversions sampleFields
      (toJsonDict plainUnhashables sampleFields (sampleInstance ⟨5, by decide, by decide⟩)) =
        .ok (sampleInstance ⟨5, by decide, by decide⟩) := by
  have hnamed : Named (.streamable sampleFields) :=
    ⟨show ([[0], [1]] : List PyStr).Nodup by decide, trivial, trivial, trivial⟩
  exact (from_to_json_dict_iff _ _ _ hnamed _).mpr
    ⟨⟨rfl, trivial⟩, ⟨trivial, trivial⟩, trivial⟩

/-- A present zero comes back as an absent value. -/
theorem present_zero_comes_back_absent : fromJsonDict plainUnhashables noConversions sampleFields
      (toJsonDict plainUnhashables sampleFields (sampleInstance ⟨0, by decide, by decide⟩)) =
        .ok (none, [[1, 2], []], ()) := rfl

end SectorChain.Proofs
