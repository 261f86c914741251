import AutoDJ.Player.Listing
import AutoDJ.Proofs.Play.Ends
import AutoDJ.Proofs.Play.Mirrors

namespace AutoDJ

namespace scanPages

variable {s : Type} {pageSize : Nat} {fetch : (offset limit : Nat) → Play s (List Song)}
  {visit : Song → s → s} {I : s → Prop}

theorem visit_foldl_keeps (visit_keeps : ∀ song state, I state → I (visit song state))
    (page : List Song) (state : s) (h : I state)
    : I (page.foldl (fun state song => visit song state) state) := by
  induction page generalizing state with
  | nil => exact h
  | cons song page ih =>
    apply ih
    apply visit_keeps
    exact h

theorem go_ends_or {E : Error → s → Prop}
    (hfetch : ∀ offset limit state, I state → (fetch offset limit).Ends state (fun _ => I) E)
    (hvisit : ∀ song state, I state → I (visit song state))
    (hlimit : ∀ state, I state → E (.protocol "listing" "more songs than can be counted") state)
    (pages offset : Nat) (state : s) (h : I state)
    : (go pageSize fetch visit pages offset).Ends state (fun _ => I) E := by
  induction pages generalizing offset state with
  | zero => exact hlimit state h
  | succ pages ih =>
    unfold go
    rw [Play.ends_bind]
    apply (hfetch _ _ state h).mono
    . intro page state h
      have hvisited := visit_foldl_keeps hvisit page state h
      simp only [Play.ends_bind, Play.ends_modify, Play.ends_ite, Play.ends_pure]
      exact ⟨fun _ => hvisited, fun _ => ih _ _ hvisited⟩
    . intro _ _ h
      exact h

theorem go_of_ok {pages offset : Nat} {state after : s} {page : List Song}
    (h : fetch offset (max pageSize 1) state = .ok page after)
    : go pageSize fetch visit (pages + 1) offset state
        = if page.length < max pageSize 1 then
            .ok (offset + page.length) (page.foldl (fun state song => visit song state) after)
          else
            go pageSize fetch visit pages (offset + page.length)
              (page.foldl (fun state song => visit song state) after) := by
  rw [go]
  simp only [bind, EStateM.bind, h]
  by_cases hshort : page.length < max pageSize 1
  . rw [if_pos hshort, if_pos hshort]
    rfl
  . rw [if_neg hshort, if_neg hshort]
    rfl

theorem go_of_error {pages offset : Nat} {state after : s} {e : Error}
    (h : fetch offset (max pageSize 1) state = .error e after)
    : go pageSize fetch visit (pages + 1) offset state = .error e after := by
  rw [go]
  simp only [bind, EStateM.bind, h]

theorem go_onFst_of_ok {w : Type} {visit : Song → w → w} {start : w} {pages offset : Nat} {state after : s}
    {page : List Song} (h : fetch offset (max pageSize 1) state = .ok page after)
    : go pageSize (fun offset limit => (fetch offset limit).onFst)
          (fun song (walk : s × w) => (walk.1, visit song walk.2)) (pages + 1) offset (state, start)
        = if page.length < max pageSize 1 then
            .ok (offset + page.length) (after, page.foldl (fun shown song => visit song shown) start)
          else
            go pageSize (fun offset limit => (fetch offset limit).onFst)
              (fun song (walk : s × w) => (walk.1, visit song walk.2)) pages (offset + page.length)
              (after, page.foldl (fun shown song => visit song shown) start) := by
  have hfetched : (fetch offset (max pageSize 1)).onFst (state, start) = .ok page (after, start) := by
    simp only [Play.onFst, h]
  have hvisited (page : List Song) (start : w)
      : page.foldl (fun (walk : s × w) song => (walk.1, visit song walk.2)) (after, start)
          = (after, page.foldl (fun shown song => visit song shown) start) := by
    induction page generalizing start with
    | nil => rfl
    | cons song page ih => exact ih _
  rw [go_of_ok hfetched, hvisited]

section Stable

variable {songs : List Song} {J : List Song → Nat → s → Prop}

theorem visit_foldl_extends {fetches : Nat}
    (hvisit : ∀ seen song state, J seen fetches state → J (seen ++ [song]) fetches (visit song state))
    (page seen : List Song) (state : s) (h : J seen fetches state)
    : J (seen ++ page) fetches (page.foldl (fun state song => visit song state) state) := by
  induction page generalizing seen state with
  | nil => simpa using h
  | cons song page ih =>
    have hpage := ih (seen ++ [song]) (visit song state) (hvisit seen song state h)
    rwa [List.append_assoc] at hpage

theorem go_covers
    (hfetch : ∀ seen rest fetches limit state, songs = seen ++ rest → J seen fetches state
      → (fetch seen.length limit).Ends state
          (fun page after => page = rest.take limit ∧ J seen (fetches + 1) after) (fun _ _ => False))
    (hvisit : ∀ seen song fetches state, J seen fetches state → J (seen ++ [song]) fetches (visit song state))
    (pages fetches : Nat) (seen rest : List Song) (state : s) (hsongs : songs = seen ++ rest)
    (hpages : rest.length < pages) (h : J seen fetches state)
    : (go pageSize fetch visit pages seen.length).Ends state
        (fun count after => count = songs.length
          ∧ J songs (fetches + rest.length / max pageSize 1 + 1) after)
        (fun _ _ => False) := by
  -- a page is full unless it is the last one, so that the pages fetched can be told from the songs seen
  induction pages generalizing fetches seen rest state with
  | zero => contradiction
  | succ pages ih =>
    have hsize : 0 < max pageSize 1 := by omega
    unfold go
    rw [Play.ends_bind]
    apply (hfetch seen rest fetches _ state hsongs h).mono
    . rintro page state ⟨rfl, h⟩
      have hvisited := visit_foldl_extends (fun seen song => hvisit seen song _)
        (rest.take (max pageSize 1)) seen state h
      have hsplit := List.take_append_drop (max pageSize 1) rest
      simp only [Play.ends_bind, Play.ends_modify, Play.ends_ite, Play.ends_pure, List.length_take]
      refine ⟨fun hshort => ?_, fun hfull => ?_⟩
      . -- a short page is all that was left
        have htake : rest.take (max pageSize 1) = rest := List.take_of_length_le (by omega)
        have hdiv : rest.length / max pageSize 1 = 0 := Nat.div_eq_of_lt (by omega)
        rw [htake] at hvisited
        rw [htake, hdiv, hsongs, List.length_append]
        exact ⟨by omega, hvisited⟩
      . have hrest : songs = seen ++ rest.take (max pageSize 1) ++ rest.drop (max pageSize 1) := by
          rw [hsongs, List.append_assoc, hsplit]
        have hnext := ih _ _ _ _ hrest (by rw [List.length_drop]; omega) hvisited
        have hdiv : rest.length / max pageSize 1
            = (rest.length - max pageSize 1) / max pageSize 1 + 1 :=
          Nat.div_eq_sub_div hsize (by omega)
        rw [List.length_append, List.length_take, List.length_drop, Nat.add_assoc fetches 1,
          Nat.add_comm 1, ← hdiv] at hnext
        exact hnext
    . intro _ _ hfalse
      exact hfalse

end Stable

end scanPages

theorem scanPages_counts {s : Type} {pageSize : Nat} {fetch : (offset limit : Nat) → Play s (List Song)}
    {visit : Song → s → s} {songs : List Song} {J : List Song → Nat → s → Prop}
    (hfetch : ∀ seen rest fetches limit state, songs = seen ++ rest → J seen fetches state
      → (fetch seen.length limit).Ends state
          (fun page after => page = rest.take limit ∧ J seen (fetches + 1) after) (fun _ _ => False))
    (hvisit : ∀ seen song fetches state, J seen fetches state → J (seen ++ [song]) fetches (visit song state))
    (hlength : songs.length < listingLimit) (state : s) (h : J [] 0 state)
    : (scanPages pageSize fetch visit).Ends state
        (fun count after => count = songs.length ∧ J songs (songs.length / max pageSize 1 + 1) after)
        (fun _ _ => False) := by
  apply (scanPages.go_covers hfetch hvisit listingLimit 0 [] songs state rfl hlength h).mono
  . intro count after hcount
    rwa [Nat.zero_add] at hcount
  . exact fun _ _ => id

theorem scanPages_covers {s : Type} {pageSize : Nat} {fetch : (offset limit : Nat) → Play s (List Song)}
    {visit : Song → s → s} {songs : List Song} {J : List Song → s → Prop}
    (hfetch : ∀ seen rest limit state, songs = seen ++ rest → J seen state
      → (fetch seen.length limit).Ends state (fun page after => page = rest.take limit ∧ J seen after)
          (fun _ _ => False))
    (hvisit : ∀ seen song state, J seen state → J (seen ++ [song]) (visit song state))
    (hlength : songs.length < listingLimit) (state : s) (h : J [] state)
    : (scanPages pageSize fetch visit).Ends state (fun _ => J songs) (fun _ _ => False) :=
  (scanPages_counts (J := fun seen _ => J seen) (fun seen rest _ => hfetch seen rest)
    (fun seen song _ => hvisit seen song) hlength state h).mono (fun _ _ => And.right) (fun _ _ => id)

/--
From an offset on, a walk is shown these songs, page by page. No page fails; those before the last one are
full, and the last one is not.
-/
inductive Shows (fetch : (offset limit : Nat) → Play s (List Song)) (size : Nat) :
    (offset : Nat) → (state : s) → List Song → (after : s) → Prop where
  | last (hpage : fetch offset size state = .ok page after) (hshort : page.length < size)
    : Shows fetch size offset state page after
  | more (hpage : fetch offset size state = .ok page next) (hfull : size ≤ page.length)
    (hrest : Shows fetch size (offset + page.length) next songs after)
    : Shows fetch size offset state (page ++ songs) after

namespace Shows

variable {s w : Type} {fetch : (offset limit : Nat) → Play s (List Song)} {pageSize offset : Nat}
  {songs : List Song} {state after : s}

theorem go_eq (h : Shows fetch (max pageSize 1) offset state songs after) (visit : Song → w → w)
    (start : w) {pages : Nat} (hpages : songs.length < pages)
    : scanPages.go pageSize (fun offset limit => (fetch offset limit).onFst)
          (fun song (walk : s × w) => (walk.1, visit song walk.2)) pages offset (state, start)
        = .ok (offset + songs.length) (after, songs.foldl (fun shown song => visit song shown) start) := by
  induction h generalizing start pages with
  | last hpage hshort =>
    obtain ⟨pages, rfl⟩ := Nat.exists_eq_succ_of_ne_zero (Nat.ne_zero_of_lt hpages)
    rw [scanPages.go_onFst_of_ok hpage, if_pos hshort]
  | @more offset state page next songs after hpage hfull hrest ih =>
    obtain ⟨pages, rfl⟩ := Nat.exists_eq_succ_of_ne_zero (Nat.ne_zero_of_lt hpages)
    rw [List.length_append] at hpages ⊢
    rw [scanPages.go_onFst_of_ok hpage, if_neg (Nat.not_lt.mpr hfull), ih _ (by omega),
      List.foldl_append, Nat.add_assoc]

theorem scan_eq (h : Shows fetch (max pageSize 1) 0 state songs after) (hlength : songs.length < listingLimit)
    (visit : Song → w → w) (start : w)
    : scanPages pageSize (fun offset limit => (fetch offset limit).onFst)
          (fun song (walk : s × w) => (walk.1, visit song walk.2)) (state, start)
        = .ok songs.length (after, songs.foldl (fun shown song => visit song shown) start) := by
  rw [← Nat.zero_add songs.length]
  exact h.go_eq visit start hlength

end Shows

inductive Breaks (fetch : (offset limit : Nat) → Play s (List Song)) (size : Nat) :
    (offset : Nat) → (state : s) → List Song → Error → (after : s) → Prop where
  | here (hpage : fetch offset size state = .error e after)
    : Breaks fetch size offset state [] e after
  | later (hpage : fetch offset size state = .ok page next) (hfull : size ≤ page.length)
    (hrest : Breaks fetch size (offset + page.length) next songs e after)
    : Breaks fetch size offset state (page ++ songs) e after

namespace Shows

variable {s : Type} {fetch : (offset limit : Nat) → Play s (List Song)} {size offset : Nat}
  {songs songs' : List Song} {state after after' : s} {e : Error}

theorem keeps {I : s → Prop}
    (hfetch : ∀ offset limit state, I state → (fetch offset limit).Ends state (fun _ => I) (fun _ _ => True))
    (h : Shows fetch size offset state songs after) (hstate : I state) : I after := by
  induction h with
  | last hpage hshort => exact (hfetch _ _ _ hstate).of_ok hpage
  | more hpage hfull hrest ih => exact ih ((hfetch _ _ _ hstate).of_ok hpage)

theorem not_breaks (h : Shows fetch size offset state songs after)
    : ¬Breaks fetch size offset state songs' e after' := by
  intro h'
  induction h generalizing songs' with
  | last hpage hshort =>
    cases h' with
    | here hpage' => simp [hpage] at hpage'
    | later hpage' hfull' hrest' =>
      rw [hpage] at hpage'
      cases hpage'
      omega
  | more hpage hfull hrest ih =>
    cases h' with
    | here hpage' => simp [hpage] at hpage'
    | later hpage' hfull' hrest' =>
      rw [hpage] at hpage'
      cases hpage'
      exact ih hrest'

end Shows

namespace Breaks

variable {s w : Type} {fetch : (offset limit : Nat) → Play s (List Song)} {pageSize offset : Nat}
  {songs : List Song} {state after : s} {e : Error}

theorem go_eq (h : Breaks fetch (max pageSize 1) offset state songs e after) (visit : Song → w → w)
    (start : w) {pages : Nat} (hpages : songs.length < pages)
    : scanPages.go pageSize (fun offset limit => (fetch offset limit).onFst)
          (fun song (walk : s × w) => (walk.1, visit song walk.2)) pages offset (state, start)
        = .error e (after, songs.foldl (fun shown song => visit song shown) start) := by
  induction h generalizing start pages with
  | here hpage =>
    obtain ⟨pages, rfl⟩ := Nat.exists_eq_succ_of_ne_zero (Nat.ne_zero_of_lt hpages)
    apply scanPages.go_of_error
    simp only [Play.onFst, hpage]
    rfl
  | @later offset state page next songs e after hpage hfull hrest ih =>
    obtain ⟨pages, rfl⟩ := Nat.exists_eq_succ_of_ne_zero (Nat.ne_zero_of_lt hpages)
    rw [List.length_append] at hpages
    rw [scanPages.go_onFst_of_ok hpage, if_neg (Nat.not_lt.mpr hfull), ih _ (by omega),
      List.foldl_append]

theorem scan_eq (h : Breaks fetch (max pageSize 1) 0 state songs e after)
    (hlength : songs.length < listingLimit) (visit : Song → w → w) (start : w)
    : scanPages pageSize (fun offset limit => (fetch offset limit).onFst)
          (fun song (walk : s × w) => (walk.1, visit song walk.2)) (state, start)
        = .error e (after, songs.foldl (fun shown song => visit song shown) start) :=
  h.go_eq visit start hlength

end Breaks

theorem scanPages_ends {s : Type} (pageSize : Nat) (fetch : (offset limit : Nat) → Play s (List Song))
    (visit : Song → s → s) (I : s → Prop)
    (fetch_keeps
      : ∀ offset limit state, I state → (fetch offset limit).Ends state (fun _ => I) (fun _ => I))
    (visit_keeps : ∀ song state, I state → I (visit song state)) (state : s) (h : I state)
    : (scanPages pageSize fetch visit).Ends state (fun _ => I) (fun _ => I) := by
  unfold scanPages
  apply scanPages.go_ends_or fetch_keeps visit_keeps
  . intro _ h
    exact h
  . exact h

theorem scanPages_mirrors {s t : Type} {forget : t → s} (pageSize : Nat)
    {fetch : (offset limit : Nat) → Play s (List Song)}
    {fetch' : (offset limit : Nat) → Play t (List Song)} (visit : Song → s → s) (visit' : Song → t → t)
    (hfetch : ∀ offset limit, Play.Mirrors forget Eq (fetch offset limit) (fetch' offset limit))
    (hvisit : ∀ song state, visit song (forget state) = forget (visit' song state))
    : Play.Mirrors forget Eq (scanPages pageSize fetch visit) (scanPages pageSize fetch' visit') := by
  have hpage (page : List Song) (state : t)
      : page.foldl (fun state song => visit song state) (forget state)
          = forget (page.foldl (fun state song => visit' song state) state) := by
    induction page generalizing state with
    | nil => rfl
    | cons song page ih => rw [List.foldl_cons, List.foldl_cons, hvisit, ih]
  have hgo (pages offset : Nat)
      : Play.Mirrors forget Eq (scanPages.go pageSize fetch visit pages offset)
          (scanPages.go pageSize fetch' visit' pages offset) := by
    induction pages generalizing offset with
    | zero => exact .throw _
    | succ pages ih =>
      unfold scanPages.go
      apply (hfetch _ _).bind
      rintro page _ rfl
      apply Play.Mirrors.bind (R := Eq) (.modify (hpage page))
      rintro _ _ rfl
      split
      . exact .pure rfl
      . exact ih _
  exact hgo _ _

end AutoDJ
