/-
  The statements that values carry.

  A routine is a value, so what a template runs may come from any value it meets. A value is
  allowed if the bodies of the routines in it are, and if the functions of lists in it are
  permitted.

  Operations put values together from the parts of others, so what they give is allowed if what
  they are given is: `gives_arithmetic`, `gives_applyFilter` and so on.
-/
import Mathlib
import Scaffold.Proofs.Effect
import Scaffold.Proofs.Permits

namespace Scaffold.Template

variable {p : Permit}

/-! ## Values -/

/-- Whether a value is a list that is lent. -/
def Value.isLent : Value → Bool
  | .lent _ _ => true
  | _ => false

mutual

/-- Whether the bodies of the routines in a value are allowed, and the functions of lists. -/
@[simp] def Value.allowed (p : Permit) : Value → Bool
  | .list items | .lent _ items | .tuple items | .view _ items | .loop _ items =>
    allowedItems p items
  | .mapping entries => allowedEntries p entries
  | .routine _ params body scopes =>
    allowedParams p params && allowedIn p body && allowedScopes p scopes
  | .method receiver _ => (p.takes || !receiver.isLent) && receiver.allowed p
  | .none | .bool _ | .whole _ | .fraction _ | .text _ | .range _ _ _ | .missing _ | .blank _
  | .builtin _ | .blocks | .block _ _ => true

/-- Whether values are allowed. -/
def allowedItems (p : Permit) : List Value → Bool
  | [] => true
  | v :: rest => v.allowed p && allowedItems p rest

/-- Whether keys and values are allowed. -/
def allowedEntries (p : Permit) : List (Value × Value) → Bool
  | [] => true
  | (k, v) :: rest => k.allowed p && v.allowed p && allowedEntries p rest

/-- Whether the values of names are allowed. -/
def allowedNames (p : Permit) : List (String × Value) → Bool
  | [] => true
  | (_, v) :: rest => v.allowed p && allowedNames p rest

/-- Whether the values of names in scopes are allowed. -/
def allowedScopes (p : Permit) : List (List (String × Value)) → Bool
  | [] => true
  | s :: rest => allowedNames p s && allowedScopes p rest

end

@[simp] theorem allowedItems_iff {items : List Value} :
    allowedItems p items = true ↔ ∀ v ∈ items, v.allowed p = true := by
  induction items with
  | nil => simp [allowedItems]
  | cons v rest ih => simp [allowedItems, ih]

@[simp] theorem allowedEntries_iff {entries : List (Value × Value)} :
    allowedEntries p entries = true ↔
      ∀ e ∈ entries, e.1.allowed p = true ∧ e.2.allowed p = true := by
  induction entries with
  | nil => simp [allowedEntries]
  | cons e rest ih => simp [allowedEntries, ih]

theorem allowedNames_iff {s : Scope} :
    allowedNames p s = true ↔ ∀ e ∈ s, e.2.allowed p = true := by
  induction s with
  | nil => simp [allowedNames]
  | cons e rest ih => simp [allowedNames, ih]

@[simp] theorem allowedScopes_iff {scopes : List Scope} :
    allowedScopes p scopes = true ↔ ∀ s ∈ scopes, allowedNames p s = true := by
  induction scopes with
  | nil => simp [allowedScopes]
  | cons s rest ih => simp [allowedScopes, ih]

mutual

theorem Value.allowed_any (v : Value) : v.allowed .any = true := by
  cases v with
  | list items => exact allowedItems_any items
  | lent _ items => exact allowedItems_any items
  | tuple items => exact allowedItems_any items
  | view _ items => exact allowedItems_any items
  | loop _ items => exact allowedItems_any items
  | mapping entries => exact allowedEntries_any entries
  | routine _ params body scopes =>
    simp [Value.allowed, allowedParams, allowedOption_any, allowedIn_any body,
      allowedScopes_any scopes]
  | method receiver _ => exact Value.allowed_any receiver
  | none | bool | whole | fraction | text | range | missing | blank | builtin | blocks | block =>
    rfl

theorem allowedItems_any (items : List Value) : allowedItems .any items = true := by
  cases items with
  | nil => rfl
  | cons v rest => simp only [allowedItems, Value.allowed_any v, allowedItems_any rest]; rfl

theorem allowedEntries_any (entries : List (Value × Value)) :
    allowedEntries .any entries = true := by
  cases entries with
  | nil => rfl
  | cons e rest =>
    simp only [allowedEntries, Value.allowed_any e.1, Value.allowed_any e.2,
      allowedEntries_any rest]
    rfl

theorem allowedNames_any (s : List (String × Value)) : allowedNames .any s = true := by
  cases s with
  | nil => rfl
  | cons e rest => simp only [allowedNames, Value.allowed_any e.2, allowedNames_any rest]; rfl

theorem allowedScopes_any (scopes : List (List (String × Value))) :
    allowedScopes .any scopes = true := by
  cases scopes with
  | nil => rfl
  | cons s rest => simp only [allowedScopes, allowedNames_any s, allowedScopes_any rest]; rfl

end

/-! ## Results -/

variable {α β : Type}

/-- What a computation comes to, if it succeeds, has a property. -/
def Gives (P : α → Prop) (r : Result α) : Prop := ∀ a, r = .ok a → P a

namespace Gives

variable {P : α → Prop} {Q : β → Prop} {r : Result α} {f : α → Result β}

theorem ok {a : α} (h : P a) : Gives P (.ok a) := fun _ ha => Except.ok.inj ha ▸ h

theorem error {e : TemplateFault} : Gives P (.error e) := fun _ ha => nomatch ha

theorem any : Gives (fun _ => True) r := fun _ _ => trivial

theorem bind (hr : Gives P r) (hf : ∀ a, P a → Gives Q (f a)) : Gives Q (r >>= f) := by
  cases r with
  | error e => exact error
  | ok a => exact hf a (hr a rfl)

theorem next (hf : ∀ a, Gives Q (f a)) : Gives Q (r >>= f) := any.bind fun a _ => hf a

theorem ite {c : Prop} [Decidable c] {r r' : Result α} (h : Gives P r) (h' : Gives P r') :
    Gives P (if c then r else r') := by
  split
  · exact h
  · exact h'

end Gives

/-! ## Operations -/

/-- All arguments are allowed. -/
structure Given.Allowed (p : Permit) (g : Given) : Prop where
  args : allowedItems p g.args = true
  named : allowedNames p g.named = true

theorem Given.Allowed.gives_take {g : Given} (h : g.Allowed p) (params : List String)
    (required : Nat) :
    Gives (fun values => ∀ o ∈ values, ∀ v ∈ o, v.allowed p = true)
      (g.take params required) := by
  refine .ite .error (.ite .error (.ite .error (.ok fun o ho v hv => ?_)))
  rcases List.mem_append.1 ho with ho | ho
  · obtain ⟨w, hw, rfl⟩ := List.mem_map.1 ho
    obtain rfl := Option.mem_some.1 hv
    exact allowedItems_iff.1 h.args _ hw
  · obtain ⟨p, _, rfl⟩ := List.mem_map.1 ho
    obtain ⟨e, he, rfl⟩ := Option.map_eq_some_iff.1 hv
    exact allowedNames_iff.1 h.named e (List.mem_of_find?_eq_some he)

theorem Loans.mem_of_mem_pick {α : Type} {l : Loans} {spot : Spot} {items : List α} {a : α}
    (h : a ∈ l.pick spot items) : a ∈ items := by
  unfold pick at h
  split at h
  · obtain ⟨i, -, hi⟩ := List.mem_filterMap.1 h
    exact List.mem_of_getElem? hi
  · exact h

namespace Value

variable {v w : Value} {items : List Value} {entries : List (Value × Value)}

theorem allowed_look (l : Loans) (hv : v.allowed p = true) : (v.look l).allowed p = true := by
  unfold look
  split
  · exact allowedItems_iff.2 fun w hw => allowedItems_iff.1 hv w (Loans.mem_of_mem_pick hw)
  · exact hv

theorem gives_use (hv : v.allowed p = true) : Gives (Value.allowed p · = true) v.use := by
  unfold use
  split
  · exact .error
  · exact .ok hv

theorem gives_useFully (hv : v.allowed p = true) :
    Gives (Value.allowed p · = true) v.useFully := by
  unfold useFully
  split
  · exact .error
  · exact .error
  · exact .ok hv

theorem allowed_rangeItems (start stop step : Int) :
    ∀ w ∈ rangeItems start stop step, w.allowed p = true := by
  simp [rangeItems]

theorem gives_items (hv : v.allowed p = true) :
    Gives (fun items => ∀ w ∈ items, w.allowed p = true) v.items := by
  cases v with
  | text t => exact .ok (by simp)
  | list items => exact .ok (allowedItems_iff.1 hv)
  | lent _ items => exact .ok (allowedItems_iff.1 hv)
  | tuple items => exact .ok (allowedItems_iff.1 hv)
  | view _ items => exact .ok (allowedItems_iff.1 hv)
  | mapping entries =>
    exact .ok (List.forall_mem_map.2 fun e he => (allowedEntries_iff.1 hv e he).1)
  | range start stop step => exact .ok (allowed_rangeItems start stop step)
  | blank => exact .ok (by simp)
  | loop position items =>
    exact .ok fun w hw => allowedItems_iff.1 hv w (List.mem_of_mem_drop hw)
  | missing | none | bool | whole | fraction | routine | method | builtin | blocks | block =>
    exact .error

theorem allowedItems_append {items' : List Value} (h : allowedItems p items = true)
    (h' : allowedItems p items' = true) : allowedItems p (items ++ items') = true := by
  rw [allowedItems_iff] at h h' ⊢
  exact List.forall_mem_append.2 ⟨h, h'⟩

theorem allowedItems_repeated {n : Int} (h : allowedItems p items = true) :
    allowedItems p (repeated n items) = true := by
  rw [allowedItems_iff] at h ⊢
  intro w hw
  obtain ⟨l, hl, hw⟩ := List.mem_flatten.1 hw
  exact h w (List.eq_of_mem_replicate hl ▸ hw)

theorem gives_powFloat (x y : Float) : Gives (Value.allowed p · = true) (powFloat x y) :=
  .ite .error (.ite .error (.ok rfl))

theorem gives_wholeArithmetic (op : Arithmetic) (a b : Int) :
    Gives (Value.allowed p · = true) (wholeArithmetic op a b) := by
  cases op with
  | add | sub | mul => exact .ok rfl
  | div | floorDiv | mod => exact .ite .error (.ok rfl)
  | pow => exact .ite (.ok rfl) (gives_powFloat _ _)

theorem gives_floatArithmetic (op : Arithmetic) (a b : Float) :
    Gives (Value.allowed p · = true) (floatArithmetic op a b) := by
  cases op with
  | add | sub | mul => exact .ok rfl
  | div | floorDiv | mod => exact .ite .error (.ok rfl)
  | pow => exact gives_powFloat _ _

theorem gives_sequenceArithmetic (op : Arithmetic) (hv : v.allowed p = true)
    (hw : w.allowed p = true) :
    Gives (Value.allowed p · = true) (sequenceArithmetic op v w) := by
  unfold sequenceArithmetic
  split
  · exact .ok rfl
  · exact .ok (allowedItems_append hv hw)
  · exact .ok (allowedItems_append hv hw)
  · split
    · exact .ok rfl
    · exact .error
  · split
    · exact .ok rfl
    · exact .error
  · split
    · exact .ok (allowedItems_repeated hv)
    · exact .error
  · split
    · exact .ok (allowedItems_repeated hw)
    · exact .error
  · split
    · exact .ok (allowedItems_repeated hv)
    · exact .error
  · split
    · exact .ok (allowedItems_repeated hw)
    · exact .error
  · exact .error

theorem gives_arithmetic (op : Arithmetic) (hv : v.allowed p = true)
    (hw : w.allowed p = true) : Gives (Value.allowed p · = true) (arithmetic op v w) := by
  refine .bind (gives_useFully hv) fun a ha => .bind (gives_useFully hw) fun b hb => ?_
  split
  · exact gives_wholeArithmetic op _ _
  · exact gives_floatArithmetic op _ _
  · exact gives_sequenceArithmetic op ha hb

theorem gives_negate (v : Value) : Gives (Value.allowed p · = true) v.negate := by
  refine .next fun a => ?_
  split
  · exact .ok rfl
  · exact .ok rfl
  · exact .error

theorem gives_affirm (v : Value) : Gives (Value.allowed p · = true) v.affirm := by
  refine .next fun a => ?_
  split
  · next n _ => cases n <;> exact .ok rfl
  · exact .error

theorem allowed_lookup? {key : Value} (h : allowedEntries p entries = true)
    (hw : lookup? key entries = some w) : w.allowed p = true := by
  obtain ⟨e, he, rfl⟩ := Option.map_eq_some_iff.1 hw
  exact (allowedEntries_iff.1 h e (List.mem_of_find?_eq_some he)).2

theorem allowed_itemAt? {i : Int} (h : allowedItems p items = true)
    (hw : itemAt? items i = some w) : w.allowed p = true := by
  obtain ⟨_, hw⟩ := Option.ite_none_left_eq_some.1 hw
  exact allowedItems_iff.1 h w (List.mem_of_getElem? hw)

theorem allowed_element? {index : Value} (hv : v.allowed p = true)
    (hw : v.element? index = some w) : w.allowed p = true := by
  unfold element? at hw
  split at hw
  · split at hw
    · exact allowed_lookup? hv hw
    · cases hw
  · obtain ⟨_, _, hw⟩ := Option.bind_eq_some_iff.1 hw
    obtain ⟨_, _, rfl⟩ := Option.map_eq_some_iff.1 hw
    rfl
  · obtain ⟨_, _, hw⟩ := Option.bind_eq_some_iff.1 hw
    exact allowed_itemAt? hv hw
  · obtain ⟨_, _, hw⟩ := Option.bind_eq_some_iff.1 hw
    exact allowed_itemAt? hv hw
  · obtain ⟨_, _, hw⟩ := Option.bind_eq_some_iff.1 hw
    exact allowed_itemAt? hv hw
  · obtain ⟨_, _, hw⟩ := Option.bind_eq_some_iff.1 hw
    exact allowed_itemAt? (allowedItems_iff.2 (allowed_rangeItems _ _ _)) hw
  · cases hw

/-- An item of a list, or another value. -/
theorem allowed_getElem?_getD {i : Nat} {other : Value} (h : allowedItems p items = true)
    (hother : other.allowed p = true) : ((items[i]?).getD other).allowed p = true := by
  cases hi : items[i]? with
  | none => exact hother
  | some w => exact allowedItems_iff.1 h w (List.mem_of_getElem? hi)

theorem allowed_loopMember? {name : String} {position : Nat} (h : allowedItems p items = true)
    (hw : loopMember? name position items = some w) : w.allowed p = true := by
  unfold loopMember? at hw
  split at hw
  case h_10 =>
    cases hw
    split
    · rfl
    · exact allowed_getElem?_getD h rfl
  case h_11 =>
    cases hw
    exact allowed_getElem?_getD h rfl
  case h_12 => cases hw
  all_goals
    cases hw
    rfl

theorem allowed_member? {name : String} (hname : p.takes = true ∨ isSparing name = true)
    (hv : v.allowed p = true) (hw : member? name v = some w) : w.allowed p = true := by
  unfold member? at hw
  split at hw
  · next hm =>
    cases hw
    refine Bool.and_eq_true_iff.2 ⟨Bool.or_eq_true_iff.2 (hname.imp_right fun hname => ?_), hv⟩
    cases v with
    | lent spot items =>
      have hm : listMethods.contains name = true := hm
      rw [isSparing, hm] at hname
      cases hname
    | _ => rfl
  · split at hw
    · exact allowed_loopMember? hv hw
    · cases hw
      rfl
    · cases hw

theorem gives_getMember {name : String} (hname : p.takes = true ∨ isSparing name = true)
    (hv : v.allowed p = true) : Gives (Value.allowed p · = true) (v.getMember name) := by
  refine .bind (gives_useFully hv) fun v hv => ?_
  split
  · next w hw => exact .ok (allowed_member? hname hv hw)
  · cases he : v.element? (ofString name) with
    | none => exact .ok rfl
    | some w => exact .ok (allowed_element? hv he)

theorem gives_getElement (l : Loans) {index : Value}
    (hindex : p.takes = true ∨ ∀ t, index = text t → t.toString?.all isSparing = true)
    (hv : v.allowed p = true) : Gives (Value.allowed p · = true) (v.getElement l index) := by
  refine .bind (gives_useFully hv) fun v hv => ?_
  split
  · exact .error
  · split
    · next w hw => exact .ok (allowed_element? (allowed_look l hv) hw)
    · split
      · next name _ _ =>
        cases hm : name.toString?.bind fun s => member? s v with
        | none => exact .ok rfl
        | some w =>
          obtain ⟨s, hs, hw⟩ := Option.bind_eq_some_iff.1 hm
          refine .ok (allowed_member? (hindex.imp_right fun hindex => ?_) hv hw)
          exact (Option.all_eq_true _ _).1 (hindex name rfl) s hs
      · exact .ok rfl

theorem gives_sliceOf {start stop step : Option Int} (h : allowedItems p items = true) :
    Gives (allowedItems p · = true) (sliceOf start stop step items) := by
  unfold sliceOf
  split
  · exact .error
  · refine .ok (allowedItems_iff.2 fun w hw => ?_)
    obtain ⟨_, _, hi⟩ := List.mem_filterMap.1 hw
    exact allowedItems_iff.1 h w (List.mem_of_getElem? hi)

theorem gives_slice {start stop step : Option Value} (hv : v.allowed p = true) :
    Gives (Value.allowed p · = true) (v.slice start stop step) := by
  refine .bind (gives_useFully hv) fun v hv => ?_
  split
  · exact .next fun _ => .next fun _ => .next fun _ => .next fun _ => .ok rfl
  · exact .next fun _ => .next fun _ => .next fun _ => .bind (gives_sliceOf hv) fun _ h => .ok h
  · exact .next fun _ => .next fun _ => .next fun _ => .bind (gives_sliceOf hv) fun _ h => .ok h
  · exact .next fun _ => .next fun _ => .next fun _ =>
      .bind (gives_sliceOf (allowedItems_iff.2 (allowed_rangeItems _ _ _))) fun _ h => .ok h
  · exact .error

/-! ## Functions -/

variable {g : Given}

theorem gives_callTextMethod (t : Text) (name : String) (g : Given) :
    Gives (Value.allowed p · = true) (callTextMethod t name g) := by
  unfold callTextMethod
  split
  · exact .next fun _ => .ok rfl
  · exact .next fun _ => .ok rfl
  · exact .next fun _ => .ok rfl
  · exact .next fun _ => .next fun _ => .ok rfl
  · exact .next fun _ => .next fun _ => .ok rfl
  · exact .next fun _ => .next fun _ => .ok rfl
  · refine .next fun _ => ?_
    split
    · exact .next fun _ => .next fun _ => .next fun _ => .ok rfl
    · exact .error
  · refine .next fun _ => ?_
    split
    · exact .next fun _ => .next fun _ => .ok rfl
    · exact .error
  · refine .next fun _ => ?_
    split
    · exact .error
    · exact .ok (by simp)
    · exact .ok (by simp)
    · exact .ok (by simp)
    · exact .error
  · refine .next fun _ => ?_
    split
    · exact .ok rfl
    · exact .error
  · refine .next fun _ => ?_
    split
    · exact .ok rfl
    · exact .error
  · refine .next fun _ => ?_
    split
    · exact .ok rfl
    · exact .error
  · refine .next fun _ => ?_
    split
    · exact .ok rfl
    · exact .error
  · exact .error

theorem allowedItems_pairs (h : allowedEntries p entries = true) :
    allowedItems p (entries.map fun e => tuple [e.1, e.2]) = true := by
  rw [allowedEntries_iff] at h
  refine allowedItems_iff.2 (List.forall_mem_map.2 fun e he => ?_)
  simp [h e he]

theorem gives_callMappingMethod (name : String) (h : allowedEntries p entries = true)
    (hg : g.Allowed p) :
    Gives (Value.allowed p · = true) (callMappingMethod entries name g) := by
  have hentries := allowedEntries_iff.1 h
  unfold callMappingMethod
  split
  · exact .next fun _ => .ok (allowedItems_pairs h)
  · exact .next fun _ => .ok (by simpa using fun k v he => (hentries (k, v) he).1)
  · exact .next fun _ => .ok (by simpa using fun v k he => (hentries (k, v) he).2)
  · refine .bind (hg.gives_take _ _) fun values hvalues => ?_
    split
    · exact .error
    · next key other _ =>
      refine .ite (.ok ?_) .error
      cases hk : lookup? key entries with
      | some w => exact allowed_lookup? h hk
      | none =>
        cases other with
        | none => rfl
        | some w => exact hvalues (some w) (by simp) w rfl
    · exact .error
  · exact .error

theorem gives_callLoopMethod (position : Nat) (name : String) (hg : g.Allowed p) :
    Gives (Value.allowed p · = true) (callLoopMethod position name g) := by
  unfold callLoopMethod
  split
  · exact .error
  · exact .ok (allowed_getElem?_getD hg.args rfl)
  · exact .error

theorem gives_callMethod (name : String) (hv : v.allowed p = true) (hg : g.Allowed p) :
    Gives (Value.allowed p · = true) (callMethod v name g) := by
  unfold callMethod
  split
  · exact .ite (gives_callTextMethod _ _ _) .error
  · exact gives_callMappingMethod name hv hg
  · exact gives_callLoopMethod _ name hg
  · exact .error

theorem allowedEntries_putEntry {key : Value} (h : allowedEntries p entries = true)
    (hkey : key.allowed p = true) (hv : v.allowed p = true) :
    allowedEntries p (putEntry key v entries) = true := by
  induction entries with
  | nil => simp [putEntry, hkey, hv]
  | cons e rest ih =>
    obtain ⟨k, w⟩ := e
    simp only [allowedEntries, Bool.and_eq_true] at h
    unfold putEntry
    split
    · simp [allowedEntries, h, hv]
    · simp [allowedEntries, h, ih h.2]

theorem gives_callBuiltin (name : String) (hg : g.Allowed p) :
    Gives (Value.allowed p · = true) (callBuiltin name g) := by
  have hnamed : ∀ e ∈ g.named.map fun e => (ofString e.1, e.2),
      e.1.allowed p = true ∧ e.2.allowed p = true :=
    List.forall_mem_map.2 fun e he => ⟨rfl, allowedNames_iff.1 hg.named e he⟩
  unfold callBuiltin
  split
  · refine .ite (.next fun bounds => ?_) .error
    split
    · exact .ok rfl
    · exact .ok rfl
    · exact .ite .error (.ok rfl)
    · exact .error
  · split
    · exact .ok (allowedEntries_iff.2 hnamed)
    · next entries hargs =>
      have hentries : allowedEntries p entries = true := by
        have h := hg.args
        rw [hargs] at h
        simpa [allowedItems] using h
      refine .ok (List.foldlRecOn (motive := (allowedEntries p · = true)) _ _ hentries
        fun m hm e he => ?_)
      exact allowedEntries_putEntry hm (hnamed e he).1 (hnamed e he).2
    · exact .error
  · exact .error

theorem gives_defaulted (l : Loans) (hv : v.allowed p = true) (hg : g.Allowed p) :
    Gives (Value.allowed p · = true) (defaulted l v g) := by
  refine .bind (hg.gives_take _ _) fun values hvalues => ?_
  split
  · next other boolean =>
    have hother : (other.getD (text [])).allowed p = true := by
      cases other with
      | none => rfl
      | some w => exact hvalues (some w) (by simp) w rfl
    exact .ite (.ok hother) (.next fun _ => .ite (.next fun _ => .ite (.ok hv) (.ok hother))
      (.ok hv))
  · exact .error

theorem allowed_head?_getD {message : String} (h : ∀ w ∈ items, w.allowed p = true) :
    (items.head?.getD (missing message)).allowed p = true := by
  cases items with
  | nil => rfl
  | cons w rest => exact h w (by simp)

theorem gives_reversedItems (hv : v.allowed p = true) :
    Gives (fun items => ∀ w ∈ items, w.allowed p = true) v.reversedItems := by
  unfold reversedItems
  split
  · exact .error
  · exact .error
  · exact .bind (gives_items hv) fun _ h => .ok fun w hw => h w (List.mem_reverse.1 hw)

theorem gives_reversed (hv : v.allowed p = true) :
    Gives (Value.allowed p · = true) v.reversed := by
  unfold reversed
  split
  · exact .ok rfl
  · refine .ok (allowedItems_iff.2 fun w hw => ?_)
    exact allowedItems_iff.1 hv w (List.mem_reverse.1 hw)
  · refine .ok (allowedItems_iff.2 fun w hw => ?_)
    exact allowedItems_iff.1 hv w (List.mem_of_mem_drop (List.mem_reverse.1 hw))
  · exact .bind (gives_reversedItems hv) fun _ h => .ok (allowedItems_iff.2 h)

theorem gives_recase (form : List Char → List Char) (v : Value) :
    Gives (Value.allowed p · = true) (recase form v) := by
  refine .next fun _ => ?_
  split
  · exact .ok rfl
  · exact .ok rfl

theorem gives_onText (l : Loans) (form : Text → Text) (v : Value) (g : Given) :
    Gives (Value.allowed p · = true) (onText l form v g) :=
  .next fun _ => .next fun _ => .ok rfl

theorem gives_applyFilter (l : Loans) (name : String) (hv : v.allowed p = true)
    (hg : g.Allowed p) : Gives (Value.allowed p · = true) (applyFilter l name v g) := by
  have hlook := allowed_look l hv
  unfold applyFilter
  split
  · exact gives_onText _ _ _ _
  · exact gives_onText _ _ _ _
  · exact gives_onText _ _ _ _
  · exact gives_onText _ _ _ _
  · exact gives_onText _ _ _ _
  · exact gives_onText _ _ _ _
  · exact .next fun _ => .next fun _ => .next fun _ => .ok rfl
  · refine .next fun _ => ?_
    split
    · exact .next fun _ => .next fun _ => .next fun _ => .next fun _ => .ok rfl
    · exact .error
  · exact .next fun _ => .next fun _ => .ok rfl
  · exact .next fun _ => .next fun _ => .ok rfl
  · refine .next fun _ => ?_
    split
    · exact .next fun _ => .next fun _ => .next fun _ => .next fun _ => .ok rfl
    · exact .error
  · exact .next fun _ => .bind (gives_items hlook) fun _ h => .ok (allowed_head?_getD h)
  · exact .next fun _ => .bind (gives_reversedItems hlook) fun _ h => .ok (allowed_head?_getD h)
  · exact gives_defaulted l hv hg
  · exact gives_defaulted l hv hg
  · exact .next fun _ => .bind (gives_items hlook) fun _ h => .ok (allowedItems_iff.2 h)
  · exact .next fun _ => gives_reversed hlook
  · refine .next fun _ => .next fun _ => ?_
    split
    · exact .ok rfl
    · exact .ok rfl
    · exact .error
  · refine .next fun _ => ?_
    split
    · exact .ok rfl
    · exact .ok rfl
    · exact .ok (allowedItems_pairs hv)
    · exact .error
  · exact .next fun _ => gives_recase _ _
  · exact .next fun _ => gives_recase _ _
  · exact .next fun _ => gives_recase _ _
  · exact .error

end Value

end Scaffold.Template
