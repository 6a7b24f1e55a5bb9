import Steward.Py.Lines

/-!
# JSON pointers

RFC 6901: a pointer is a sequence of reference tokens, escaped and joined with
slashes, and it denotes at most one position of a document. `positions` lists
the positions of the atoms that satisfy a test; atoms rewritten at these
positions are restored through their pointers.
-/

namespace Py

namespace JsonPointer

/-! ## Tokens -/

def escapePoint (c : CodePoint) : Text :=
  if c = ch '~' then txt "~0" else if c = ch '/' then txt "~1" else [c]

def escape (t : Text) : Text := t.flatMap escapePoint

/-- A tilde that escapes nothing makes the token ill formed. -/
def unescape : Text → Option Text
  | [] => some []
  | [c] => if c = ch '~' then none else some [c]
  | c :: d :: t =>
    if c = ch '~' then
      if d = ch '0' then (unescape t).map (ch '~' :: ·)
      else if d = ch '1' then (unescape t).map (ch '/' :: ·)
      else none
    else (unescape (d :: t)).map (c :: ·)

theorem escape_cons (c : CodePoint) (t : Text) : escape (c :: t) = escapePoint c ++ escape t := List.flatMap_cons

theorem unescape_cons {c : CodePoint} (hc : c ≠ ch '~') (t : Text) :
    unescape (c :: t) = (unescape t).map (c :: ·) := by
  cases t with
  | nil =>
    show (if c = ch '~' then none else some [c]) = some [c]
    rw [if_neg hc]
  | cons d t => rw [unescape, if_neg hc]

theorem unescape_escape (t : Text) : unescape (escape t) = some t := by
  induction t with
  | nil => rfl
  | cons c t ih =>
    rw [escape_cons, escapePoint]
    split_ifs with htilde hslash
    · show (unescape (escape t)).map (ch '~' :: ·) = _
      rw [ih, htilde, Option.map_some]
    · show (unescape (escape t)).map (ch '/' :: ·) = _
      rw [ih, hslash, Option.map_some]
    · rw [List.singleton_append, unescape_cons htilde, ih, Option.map_some]

theorem slash_not_mem_escape (t : Text) : ch '/' ∉ escape t := by
  intro h
  obtain ⟨c, -, hc⟩ := List.mem_flatMap.1 h
  unfold escapePoint at hc
  split_ifs at hc with htilde hslash
  · revert hc
    decide
  · revert hc
    decide
  · exact hslash (List.mem_singleton.1 hc).symm

/-! ## Pointers -/

def encode (path : List Text) : Text := path.flatMap fun t => ch '/' :: escape t

def parse : Text → Option (List Text)
  | [] => some []
  | c :: s => if c = ch '/' then (s.splitOn (ch '/')).mapM unescape else none

theorem encode_cons (t : Text) (path : List Text) : encode (t :: path) = ch '/' :: (escape t ++ encode path) := rfl

/-- The pointer of a nonempty path, after its first slash. -/
theorem encode_eq_intercalate (t : Text) (path : List Text) :
    encode (t :: path) = ch '/' :: [ch '/'].intercalate ((t :: path).map escape) := by
  induction path generalizing t with
  | nil => rw [encode_cons, List.map_singleton, List.intercalate_singleton, encode, List.flatMap_nil, List.append_nil]
  | cons u path ih =>
    rw [encode_cons, ih, List.map_cons, List.map_cons, List.map_cons, List.intercalate_cons_cons,
      List.append_assoc, List.singleton_append]

theorem splitOn_intercalate_escape (t : Text) (path : List Text) :
    ([ch '/'].intercalate ((t :: path).map escape)).splitOn (ch '/') = (t :: path).map escape :=
  List.splitOn_intercalate _ (fun l hl => by
    obtain ⟨u, -, rfl⟩ := List.mem_map.1 hl
    exact slash_not_mem_escape u) (List.cons_ne_nil _ _)

theorem parse_encode (path : List Text) : parse (encode path) = some path := by
  cases path with
  | nil => rfl
  | cons t path =>
    rw [encode_eq_intercalate, parse, if_pos rfl, splitOn_intercalate_escape]
    induction (t :: path) with
    | nil => rfl
    | cons u path ih =>
      rw [List.map_cons, List.mapM_cons, unescape_escape, ih]
      rfl

theorem encode_injective : Function.Injective encode := fun p q h =>
  Option.some.inj ((parse_encode p).symm.trans ((congrArg parse h).trans (parse_encode q)))

/-! ## Positions -/

/-- An array index: decimal, without leading zeros. -/
def arrayIndex (t : Text) : Option Nat := if Text.ofNat (Text.toNat t) = t then some (Text.toNat t) else none

theorem arrayIndex_ofNat (n : Nat) : arrayIndex (Text.ofNat n) = some n := by
  rw [arrayIndex, Text.toNat_ofNat, if_pos rfl]

theorem arrayIndex_eq_some {t : Text} {n : Nat} : arrayIndex t = some n ↔ t = Text.ofNat n := by
  refine ⟨fun h => ?_, fun h => h ▸ arrayIndex_ofNat n⟩
  unfold arrayIndex at h
  split_ifs at h with hcanonical
  cases h
  exact hcanonical.symm

variable {F : Type}

def child : Value F → Text → Option (Value F)
  | .list xs, t => (arrayIndex t).bind fun i => xs[i]?
  | .dict fs, t => lookup fs t
  | _, _ => none

/-- The value at a path. -/
def evaluate : List Text → Value F → Option (Value F)
  | [], v => some v
  | t :: path, v => (child v t).bind (evaluate path)

/-- The value a pointer denotes. -/
def resolve (pointer : Text) (v : Value F) : Option (Value F) := (parse pointer).bind fun path => evaluate path v

/-- Rewrite the value at a path. -/
def modify (g : Value F → Value F) : List Text → Value F → Value F
  | [], v => g v
  | t :: path, .list xs => match arrayIndex t with
    | some i => .list (xs.modify i (modify g path))
    | none => .list xs
  | t :: path, .dict fs => .dict (fs.map fun f => if f.1 = t then (f.1, modify g path f.2) else f)
  | _ :: _, v => v

/-- Rewrite the values that the pointers denote. -/
def rewriteAll (g : Value F → Value F) (pointers : List Text) (v : Value F) : Value F :=
  pointers.foldl (fun v pointer => match parse pointer with
    | some path => modify g path v
    | none => v) v

theorem resolve_encode (path : List Text) (v : Value F) : resolve (encode path) v = evaluate path v := by
  rw [resolve, parse_encode, Option.bind_some]

/-! ## Atoms -/

def isAtom : Value F → Bool | .list _ | .dict _ => false | _ => true

theorem child_of_isAtom {v : Value F} (h : isAtom v = true) (t : Text) : child v t = none := by
  cases v <;> first | rfl | cases h

mutual
/-- Rewrite every atom. -/
def mapAtoms (g : Value F → Value F) : Value F → Value F
  | .list xs => .list (mapAtomsList g xs)
  | .dict fs => .dict (mapAtomsFields g fs)
  | v => g v
def mapAtomsList (g : Value F → Value F) : List (Value F) → List (Value F)
  | [] => []
  | x :: xs => mapAtoms g x :: mapAtomsList g xs
def mapAtomsFields (g : Value F → Value F) : List (Text × Value F) → List (Text × Value F)
  | [] => []
  | f :: fs => (f.1, mapAtoms g f.2) :: mapAtomsFields g fs
end

mutual
/-- The paths of the atoms that satisfy the test, in the order of the document. -/
def positions (p : Value F → Bool) : Value F → List (List Text)
  | .list xs => positionsList p 0 xs
  | .dict fs => positionsFields p fs
  | v => if p v then [[]] else []
def positionsList (p : Value F → Bool) : Nat → List (Value F) → List (List Text)
  | _, [] => []
  | i, x :: xs => (positions p x).map (Text.ofNat i :: ·) ++ positionsList p (i + 1) xs
def positionsFields (p : Value F → Bool) : List (Text × Value F) → List (List Text)
  | [] => []
  | f :: fs => (positions p f.2).map (f.1 :: ·) ++ positionsFields p fs
end

theorem mapAtoms_of_isAtom (g : Value F → Value F) {v : Value F} (h : isAtom v = true) : mapAtoms g v = g v := by
  cases v with
  | list => cases h
  | dict => cases h
  | _ => rfl

theorem positions_of_isAtom (p : Value F → Bool) {v : Value F} (h : isAtom v = true) :
    positions p v = if p v then [[]] else [] := by
  cases v with
  | list => cases h
  | dict => cases h
  | _ => rfl

theorem mapAtomsList_eq (g : Value F → Value F) (xs : List (Value F)) : mapAtomsList g xs = xs.map (mapAtoms g) := by
  induction xs with
  | nil => rw [mapAtomsList, List.map_nil]
  | cons x xs ih => rw [mapAtomsList, ih, List.map_cons]

theorem mapAtomsFields_eq (g : Value F → Value F) (fs : List (Text × Value F)) :
    mapAtomsFields g fs = fs.map fun f => (f.1, mapAtoms g f.2) := by
  induction fs with
  | nil => rw [mapAtomsFields, List.map_nil]
  | cons f fs ih => rw [mapAtomsFields, ih, List.map_cons]

/-- A value is an atom, a list or an object. -/
theorem atomic_induct {P : Value F → Prop} (atom : ∀ v, isAtom v = true → P v)
    (list : ∀ xs, (∀ x ∈ xs, P x) → P (.list xs))
    (dict : ∀ fs, (∀ f ∈ fs, P (Prod.snd f)) → P (.dict fs)) (v : Value F) : P v := by
  induction v using Value.induct with
  | list xs ih => exact list xs ih
  | dict fs ih => exact dict fs ih
  | _ => exact atom _ rfl

theorem mem_positionsList {p : Value F → Bool} {i : Nat} {xs : List (Value F)} {path : List Text} :
    path ∈ positionsList p i xs ↔
      ∃ j x, xs[j]? = some x ∧ ∃ q ∈ positions p x, path = Text.ofNat (i + j) :: q := by
  induction xs generalizing i with
  | nil => simp [positionsList]
  | cons x xs ih =>
    rw [positionsList, List.mem_append, List.mem_map, ih]
    constructor
    · rintro (⟨q, hq, rfl⟩ | ⟨j, y, hy, q, hq, rfl⟩)
      · exact ⟨0, x, rfl, q, hq, rfl⟩
      · exact ⟨j + 1, y, by rwa [List.getElem?_cons_succ], q, hq, by rw [Nat.add_right_comm, Nat.add_assoc]⟩
    · rintro ⟨j, y, hy, q, hq, rfl⟩
      cases j with
      | zero =>
        cases hy
        exact .inl ⟨q, hq, rfl⟩
      | succ j =>
        rw [List.getElem?_cons_succ] at hy
        exact .inr ⟨j, y, hy, q, hq, by rw [Nat.add_right_comm, Nat.add_assoc]⟩

theorem mem_positionsFields {p : Value F → Bool} {fs : List (Text × Value F)} {path : List Text} :
    path ∈ positionsFields p fs ↔ ∃ f ∈ fs, ∃ q ∈ positions p f.2, path = f.1 :: q := by
  induction fs with
  | nil => simp [positionsFields]
  | cons f fs ih =>
    rw [positionsFields, List.mem_append, List.mem_map, ih]
    simp only [List.mem_cons, or_and_right, exists_or, exists_eq_left, eq_comm (a := path)]

/-- The listed positions are those of the atoms that satisfy the test. -/
theorem mem_positions {p : Value F → Bool} {v : Value F} (hv : v.wf = true) {path : List Text} :
    path ∈ positions p v ↔ ∃ w, evaluate path v = some w ∧ isAtom w = true ∧ p w = true := by
  induction v using atomic_induct generalizing path with
  | atom v hatom =>
    rw [positions_of_isAtom p hatom]
    cases path with
    | nil => by_cases hp : p v = true <;> simp [evaluate, hp, hatom]
    | cons t path =>
      rw [evaluate, child_of_isAtom hatom]
      split_ifs <;> simp
  | list xs ih =>
    rw [positions, mem_positionsList]
    constructor
    · rintro ⟨j, x, hx, q, hq, rfl⟩
      have hmem := List.mem_of_getElem? hx
      obtain ⟨w, hw, h⟩ := (ih x hmem (Value.wf_list.1 hv x hmem)).1 hq
      refine ⟨w, ?_, h⟩
      rw [evaluate, child, Nat.zero_add, arrayIndex_ofNat, Option.bind_some, hx, Option.bind_some, hw]
    · rintro ⟨w, hw, h⟩
      cases path with
      | nil =>
        cases hw
        cases h.1
      | cons t q =>
        obtain ⟨x, hx, hw⟩ := Option.bind_eq_some_iff.1 hw
        obtain ⟨j, hj, hx⟩ := Option.bind_eq_some_iff.1 hx
        have hmem := List.mem_of_getElem? hx
        refine ⟨j, x, hx, q, (ih x hmem (Value.wf_list.1 hv x hmem)).2 ⟨w, hw, h⟩, ?_⟩
        rw [arrayIndex_eq_some.1 hj, Nat.zero_add]
  | dict fs ih =>
    obtain ⟨hkeys, hfs⟩ := Value.wf_dict.1 hv
    rw [positions, mem_positionsFields]
    constructor
    · rintro ⟨f, hf, q, hq, rfl⟩
      obtain ⟨w, hw, h⟩ := (ih f hf (hfs f hf)).1 hq
      refine ⟨w, ?_, h⟩
      rw [evaluate, child, lookup_of_mem hkeys hf, Option.bind_some, hw]
    · rintro ⟨w, hw, h⟩
      cases path with
      | nil =>
        cases hw
        cases h.1
      | cons t q =>
        obtain ⟨x, hx, hw⟩ := Option.bind_eq_some_iff.1 hw
        have hf := mem_of_lookup hx
        exact ⟨(t, x), hf, q, (ih _ hf (hfs _ hf)).2 ⟨w, hw, h⟩, rfl⟩

theorem nodup_positions {p : Value F → Bool} {v : Value F} (hv : v.wf = true) : (positions p v).Nodup := by
  have hcons (t : Text) {paths : List (List Text)} (h : paths.Nodup) : (paths.map (t :: ·)).Nodup :=
    h.map (List.cons_injective (a := t))
  induction v using atomic_induct with
  | atom v hatom =>
    rw [positions_of_isAtom p hatom]
    split_ifs
    · exact List.nodup_singleton _
    · exact List.nodup_nil
  | list xs ih =>
    have key (i : Nat) (ys : List (Value F)) (hys : ys ⊆ xs) : (positionsList p i ys).Nodup := by
      induction ys generalizing i with
      | nil => exact List.nodup_nil
      | cons y ys ihy =>
        have hy : y ∈ xs := hys List.mem_cons_self
        refine List.Nodup.append (hcons _ (ih y hy (Value.wf_list.1 hv y hy)))
          (ihy _ fun z hz => hys (List.mem_cons_of_mem _ hz)) fun path hpath hlater => ?_
        obtain ⟨q, -, rfl⟩ := List.mem_map.1 hpath
        obtain ⟨j, z, -, q', -, heq⟩ := mem_positionsList.1 hlater
        have hindex := congrArg Text.toNat (List.cons.inj heq).1
        rw [Text.toNat_ofNat, Text.toNat_ofNat] at hindex
        omega
    exact key 0 xs (List.Subset.refl _)
  | dict fs ih =>
    obtain ⟨hkeys, hfs⟩ := Value.wf_dict.1 hv
    have key (gs : List (Text × Value F)) (hgs : gs ⊆ fs) (hnodup : (keys gs).Nodup) :
        (positionsFields p gs).Nodup := by
      induction gs with
      | nil => exact List.nodup_nil
      | cons g gs ihg =>
        have hg : g ∈ fs := hgs List.mem_cons_self
        obtain ⟨hnot, hrest⟩ := List.nodup_cons.1 hnodup
        refine List.Nodup.append (hcons _ (ih g hg (hfs g hg)))
          (ihg (fun f hf => hgs (List.mem_cons_of_mem _ hf)) hrest) fun path hpath hlater => ?_
        obtain ⟨q, -, rfl⟩ := List.mem_map.1 hpath
        obtain ⟨f, hf, q', -, heq⟩ := mem_positionsFields.1 hlater
        exact hnot ((List.cons.inj heq).1 ▸ List.mem_map_of_mem hf)
    exact key fs (List.Subset.refl _) hkeys

/-- Rewriting atoms moves nothing. -/
theorem evaluate_mapAtoms {g : Value F → Value F} (hg : ∀ w, isAtom w = true → isAtom (g w) = true) (path : List Text)
    (v : Value F) : evaluate path (mapAtoms g v) = (evaluate path v).map (mapAtoms g) := by
  induction path generalizing v with
  | nil => rfl
  | cons t path ih =>
    have hchild : child (mapAtoms g v) t = (child v t).map (mapAtoms g) := by
      cases v using atomic_induct with
      | atom v hatom =>
        rw [mapAtoms_of_isAtom g hatom, child_of_isAtom (hg v hatom), child_of_isAtom hatom, Option.map_none]
      | list xs =>
        rw [mapAtoms, mapAtomsList_eq, child, child, Option.map_bind]
        exact Option.bind_congr fun i _ => List.getElem?_map
      | dict fs => rw [mapAtoms, mapAtomsFields_eq, child, child, lookup_map]
    rw [evaluate, evaluate, hchild, Option.bind_map, Option.map_bind]
    exact Option.bind_congr fun w _ => ih w

/-- Sorting keys moves nothing that a pointer can tell. -/
theorem evaluate_sortKeys (path : List Text) {v : Value F} (hv : v.wf = true) :
    evaluate path v.sortKeys = (evaluate path v).map Value.sortKeys := by
  induction path generalizing v with
  | nil => rfl
  | cons t path ih =>
    have hchild : child v.sortKeys t = (child v t).map Value.sortKeys := by
      cases v with
      | list xs =>
        rw [Value.sortKeys_list, child, child, Option.map_bind]
        exact Option.bind_congr fun i _ => List.getElem?_map
      | dict fs =>
        rw [Value.sortKeys_dict, child, child]
        exact Value.lookup_sortKeys (Value.wf_dict.1 hv).1 t
      | _ => rfl
    rw [evaluate, evaluate, hchild, Option.bind_map, Option.map_bind]
    refine Option.bind_congr fun w hw => ih ?_
    cases v with
    | list xs =>
      obtain ⟨i, -, hi⟩ := Option.bind_eq_some_iff.1 hw
      exact Value.wf_list.1 hv w (List.mem_of_getElem? hi)
    | dict fs => exact (Value.wf_dict.1 hv).2 _ (mem_of_lookup hw)
    | _ => cases hw

/-! ## Restoring -/

def modifyAll (g : Value F → Value F) (paths : List (List Text)) (v : Value F) : Value F :=
  paths.foldl (fun v path => modify g path v) v

theorem rewriteAll_encode (g : Value F → Value F) (paths : List (List Text)) (v : Value F) :
    rewriteAll g (paths.map encode) v = modifyAll g paths v := by
  rw [rewriteAll, List.foldl_map]
  simp only [parse_encode]
  rfl

theorem modifyAll_append (g : Value F → Value F) (paths paths' : List (List Text)) (v : Value F) :
    modifyAll g (paths ++ paths') v = modifyAll g paths' (modifyAll g paths v) := List.foldl_append

theorem modifyAll_list (g : Value F → Value F) (i : Nat) (paths : List (List Text)) (xs : List (Value F)) :
    modifyAll g (paths.map (Text.ofNat i :: ·)) (.list xs) = .list (xs.modify i (modifyAll g paths)) := by
  induction paths generalizing xs with
  | nil => exact congrArg Value.list (List.modify_id i xs).symm
  | cons path paths ih =>
    show modifyAll g (paths.map (Text.ofNat i :: ·)) (modify g (Text.ofNat i :: path) (.list xs)) = _
    rw [modify, arrayIndex_ofNat]
    show modifyAll g _ (.list (xs.modify i (modify g path))) = _
    rw [ih, List.modify_modify_eq]
    rfl

theorem modifyAll_dict (g : Value F → Value F) (k : Text) (paths : List (List Text)) (fs : List (Text × Value F)) :
    modifyAll g (paths.map (k :: ·)) (.dict fs) =
      .dict (fs.map fun f => if f.1 = k then (f.1, modifyAll g paths f.2) else f) := by
  induction paths generalizing fs with
  | nil =>
    have hid : (fs.map fun f => if f.1 = k then (f.1, modifyAll g [] f.2) else f) = fs := by
      refine (List.map_congr_left fun f _ => ?_).trans (List.map_id fs)
      split_ifs <;> rfl
    rw [hid]
    rfl
  | cons path paths ih =>
    show modifyAll g (paths.map (k :: ·)) (modify g (k :: path) (.dict fs)) = _
    rw [modify, ih, List.map_map]
    refine congrArg Value.dict (List.map_congr_left fun f _ => ?_)
    by_cases hk : f.1 = k
    · simp only [Function.comp, if_pos hk]
      rfl
    · simp only [Function.comp, if_neg hk]

theorem modify_length_append {α : Type} (g : α → α) (xs : List α) (y : α) (ys : List α) :
    (xs ++ y :: ys).modify xs.length g = xs ++ g y :: ys := by
  induction xs with
  | nil => rfl
  | cons x xs ih => rw [List.cons_append, List.length_cons, List.modify_succ_cons, ih, List.cons_append]

/-- Atoms rewritten where the test holds are restored at their positions. -/
theorem modifyAll_positions {p : Value F → Bool} {f g : Value F → Value F}
    (hgf : ∀ w, isAtom w = true → p w = true → g (f w) = w) {v : Value F} (hv : v.wf = true) :
    modifyAll g (positions p v) (mapAtoms (fun w => if p w then f w else w) v) = v := by
  induction v using atomic_induct with
  | atom v hatom =>
    rw [positions_of_isAtom p hatom, mapAtoms_of_isAtom _ hatom]
    by_cases hp : p v = true
    · rw [if_pos hp, if_pos hp]
      exact hgf v hatom hp
    · rw [if_neg hp, if_neg hp]
      rfl
  | list xs ih =>
    have key (pre ys : List (Value F)) (hys : ys ⊆ xs) : modifyAll g (positionsList p pre.length ys)
        (.list (pre ++ mapAtomsList (fun w => if p w then f w else w) ys)) = .list (pre ++ ys) := by
      induction ys generalizing pre with
      | nil => rfl
      | cons y ys ihy =>
        have hy : y ∈ xs := hys List.mem_cons_self
        rw [positionsList, modifyAll_append, mapAtomsList, modifyAll_list, modify_length_append,
          ih y hy (Value.wf_list.1 hv y hy)]
        have hlater := ihy (pre ++ [y]) fun z hz => hys (List.mem_cons_of_mem _ hz)
        rwa [List.length_append, List.length_singleton, List.append_assoc, List.append_assoc] at hlater
    exact key [] xs (List.Subset.refl _)
  | dict fs ih =>
    obtain ⟨hkeys, hfs⟩ := Value.wf_dict.1 hv
    have key (pre gs : List (Text × Value F)) (hgs : gs ⊆ fs) (hnodup : (keys (pre ++ gs)).Nodup) :
        modifyAll g (positionsFields p gs)
          (.dict (pre ++ mapAtomsFields (fun w => if p w then f w else w) gs)) = .dict (pre ++ gs) := by
      induction gs generalizing pre with
      | nil => rfl
      | cons h gs ihg =>
        have hh : h ∈ fs := hgs List.mem_cons_self
        have hmiddle := hnodup
        rw [keys, List.map_append, List.map_cons] at hmiddle
        obtain ⟨hpre, hpost⟩ : (∀ e ∈ pre, e.1 ≠ h.1) ∧ ∀ e ∈ gs, e.1 ≠ h.1 := by
          obtain ⟨-, hcons, hdisjoint⟩ := List.nodup_append.1 hmiddle
          exact ⟨fun e he => hdisjoint _ (List.mem_map_of_mem he) _ List.mem_cons_self,
            fun e he heq => (List.nodup_cons.1 hcons).1 (heq ▸ List.mem_map_of_mem he)⟩
        have hothers {es : List (Text × Value F)} (hes : ∀ e ∈ es, e.1 ≠ h.1) (r : Value F → Value F) :
            (es.map fun e => if e.1 = h.1 then (e.1, r e.2) else e) = es :=
          (List.map_congr_left fun e he => if_neg (hes e he)).trans (List.map_id es)
        have hmapped : ∀ e ∈ mapAtomsFields (fun w => if p w then f w else w) gs, e.1 ≠ h.1 := by
          rw [mapAtomsFields_eq]
          intro e he
          obtain ⟨e', he', rfl⟩ := List.mem_map.1 he
          exact hpost e' he'
        rw [positionsFields, modifyAll_append, mapAtomsFields, modifyAll_dict, List.map_append, List.map_cons,
          hothers hpre, hothers hmapped, if_pos rfl, ih h hh (hfs h hh)]
        have hlater := ihg (pre ++ [h]) (fun e he => hgs (List.mem_cons_of_mem _ he))
          (by rwa [List.append_assoc])
        rwa [List.append_assoc, List.append_assoc] at hlater
    exact key [] fs (List.Subset.refl _) hkeys

end JsonPointer

end Py
