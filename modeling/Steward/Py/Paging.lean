import Mathlib.Data.List.Basic

/-!
# Pages

A reader of pages names an offset and gets some items and the offset of the next
page. `follow` reads until there is none. Where every page is a window of one
list that moves on, `follow` returns that list; where a page points to itself it
never returns.
-/

namespace Paging

variable {α ε : Type}

structure Page (α : Type) where
  items : List α
  next : Option Nat

/-- The items of the pages from `offset` on; `none` when `fuel` pages do not reach the last. -/
def follow (read : Nat → Except ε (Page α)) : Nat → Nat → Except ε (Option (List α))
  | 0, _ => .ok none
  | fuel + 1, offset => do
    let page ← read offset
    match page.next with
    | some next =>
      let rest ← follow read fuel next
      pure (rest.map (page.items ++ ·))
    | none => pure (some page.items)

/-- `page` shows `xs` from `offset` on, and points behind its last item while there is more. -/
structure Window (xs : List α) (offset : Nat) (page : Page α) : Prop where
  items : page.items <+: xs.drop offset
  next : page.next =
    if offset + page.items.length < xs.length then some (offset + page.items.length) else none

/-- The next page starts later. -/
def Advances (offset : Nat) (page : Page α) : Prop := ∀ next ∈ page.next, offset < next

theorem Window.drop {xs : List α} {offset : Nat} {page : Page α} (h : Window xs offset page) :
    page.items ++ xs.drop (offset + page.items.length) = xs.drop offset := by
  obtain ⟨rest, hrest⟩ := h.items
  rw [← hrest, ← List.drop_drop, ← hrest, List.drop_left]

/-- Pages that are windows and advance give the list, whatever their sizes. -/
theorem follow_eq {xs : List α} {read : Nat → Except ε (Page α)}
    (h : ∀ offset, ∃ page, read offset = .ok page ∧ Window xs offset page ∧ Advances offset page)
    {fuel offset : Nat} (hfuel : xs.length < fuel + offset) (hpos : 0 < fuel) :
    follow read fuel offset = .ok (some (xs.drop offset)) := by
  induction fuel generalizing offset with
  | zero => omega
  | succ fuel ih =>
    obtain ⟨page, hpage, hwindow, hadvance⟩ := h offset
    have hnext := hwindow.next
    rw [follow, hpage]
    split_ifs at hnext with hmore
    · have hlater := hadvance _ (Option.mem_def.2 hnext)
      have hrest : follow read fuel (offset + page.items.length) =
          .ok (some (xs.drop (offset + page.items.length))) := ih (by omega) (by omega)
      show (match page.next with
        | some next => follow read fuel next >>= fun rest => pure (rest.map (page.items ++ ·))
        | none => pure (some page.items)) = _
      rw [hnext]
      show (follow read fuel (offset + page.items.length) >>= fun rest => pure (rest.map (page.items ++ ·))) = _
      rw [hrest]
      exact congrArg (fun l => Except.ok (some l)) hwindow.drop
    · have hend : xs.drop (offset + page.items.length) = [] := List.drop_eq_nil_of_le (by omega)
      have hall := hwindow.drop
      rw [hend, List.append_nil] at hall
      show (match page.next with
        | some next => follow read fuel next >>= fun rest => pure (rest.map (page.items ++ ·))
        | none => pure (some page.items)) = _
      rw [hnext, ← hall]
      rfl

/-! ## Slices -/

/-- The page of up to `limit` items. -/
def slice (xs : List α) (limit offset : Nat) : Page α where
  items := (xs.drop offset).take limit
  next :=
    if offset + ((xs.drop offset).take limit).length < xs.length then
      some (offset + ((xs.drop offset).take limit).length)
    else none

theorem slice_window (xs : List α) (limit offset : Nat) : Window xs offset (slice xs limit offset) :=
  ⟨List.take_prefix _ _, rfl⟩

theorem slice_advances (xs : List α) {limit : Nat} (hlimit : 0 < limit) (offset : Nat) :
    Advances offset (slice xs limit offset) := by
  intro next hnext
  unfold slice at hnext
  split_ifs at hnext with hmore
  · obtain rfl := Option.some.inj (Option.mem_def.1 hnext)
    rw [List.length_take, List.length_drop] at hmore ⊢
    omega
  · cases hnext

end Paging
