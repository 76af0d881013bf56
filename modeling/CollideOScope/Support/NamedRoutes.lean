import Mathlib.Logic.Equiv.Basic

/-!
# Routes that are saved by position

A live document names a donor by an identity, a saved one by the place where the
donor stood.  A live route keeps the place it was last saved at.  When a donor
is gone, its route becomes a tombstone that still names that place, and whoever
stands there later is not its donor.
-/

namespace CollideOScope

open Option

variable {I P X L S : Type}

/-- A route of a live document; `rest` is what it carries beside its donor. -/
inductive LiveRoute (I P X : Type)
  | none
  | selected (donor : I) (saved : P) (rest : X)
  | missing (saved : P) (rest : X)

inductive SavedRoute (P X : Type)
  | none
  | selected (saved : P) (rest : X)
  | missing (saved : P) (rest : X)

/-- Save the place where the donor stands now. -/
def LiveRoute.capture (placeOf : I → Option P) : LiveRoute I P X → SavedRoute P X
  | none => .none
  | selected donor saved rest =>
    match placeOf donor with
    | .none => .missing saved rest
    | some place => .selected place rest
  | missing saved rest => .missing saved rest

def LiveRoute.captureCached : LiveRoute I P X → SavedRoute P X
  | none => .none
  | selected _ saved rest => .selected saved rest
  | missing saved rest => .missing saved rest

/-- Select whoever stands at the saved place. -/
def SavedRoute.resolve (donorAt : P → Option I) : SavedRoute P X → LiveRoute I P X
  | none => .none
  | selected saved rest =>
    match donorAt saved with
    | .none => .missing saved rest
    | some donor => .selected donor saved rest
  | missing saved rest => .missing saved rest

/-- A route before it is resolved selects nobody. -/
def SavedRoute.unresolved : SavedRoute P X → LiveRoute I P X
  | none => .none
  | selected saved rest => .missing saved rest
  | missing saved rest => .missing saved rest

/-- A route selects whoever took the place of its donor; it is missing when its
donor is gone, and stays missing. -/
def LiveRoute.Follows (placeOf : I → Option P) (donorAt : P → Option I) :
    LiveRoute I P X → LiveRoute I P X → Prop
  | none, after => after = none
  | selected donor saved rest, after =>
    match placeOf donor with
    | .none => after = missing saved rest
    | some place => ∃ heir, donorAt place = some heir ∧ after = selected heir place rest
  | missing saved rest, after => after = missing saved rest

/-- The route was last saved where its donor stands. -/
def LiveRoute.CachedInPlace (placeOf : I → Option P) : LiveRoute I P X → Prop
  | none => True
  | selected donor saved _ => placeOf donor = some saved
  | missing _ _ => True

section

variable {placeOf placeOf' : I → Option P} {donorAt : P → Option I}

section

variable (hkept : ∀ donor place, placeOf donor = some place → (donorAt place).isSome)
  (route : LiveRoute I P X)
include hkept

theorem LiveRoute.follows_resolve_capture :
    route.Follows placeOf donorAt ((route.capture placeOf).resolve donorAt) := by
  cases route with
  | none | missing saved rest => rfl
  | selected donor saved rest =>
    cases hplace : placeOf donor with
    | none => simp [Follows, capture, SavedRoute.resolve, hplace]
    | some place =>
      obtain ⟨heir, hheir⟩ := isSome_iff_exists.mp (hkept donor place hplace)
      simp [Follows, capture, SavedRoute.resolve, hplace, hheir]

theorem LiveRoute.survives_cached_iff :
    (route.Follows placeOf donorAt (route.captureCached.resolve donorAt) ∧
      (route.captureCached.resolve donorAt).captureCached = route.captureCached) ↔
      route.CachedInPlace placeOf := by
  cases route with
  | none | missing saved rest => exact ⟨fun _ => trivial, fun _ => ⟨rfl, rfl⟩⟩
  | selected donor saved rest =>
    cases hplace : placeOf donor with
    | none =>
      cases hthere : donorAt saved <;>
        simp [Follows, CachedInPlace, captureCached, SavedRoute.resolve, hplace, hthere]
    | some place =>
      obtain ⟨heir, hheir⟩ := isSome_iff_exists.mp (hkept donor place hplace)
      simp only [Follows, CachedInPlace, captureCached, SavedRoute.resolve,
        hplace, Option.some.injEq]
      constructor
      · rintro ⟨⟨successor, -, heq⟩, -⟩
        split at heq
        · cases heq
        · cases heq
          rfl
      · rintro rfl
        rw [hheir]
        exact ⟨⟨heir, rfl, rfl⟩, rfl⟩

end

theorem SavedRoute.capture_resolve
    (hback : ∀ place donor, donorAt place = some donor →
      placeOf' donor = some place) {saved : SavedRoute P X}
    (hthere : ∀ place rest, saved = selected place rest → (donorAt place).isSome) :
    (saved.resolve donorAt).capture placeOf' = saved := by
  cases saved with
  | none | missing place rest => rfl
  | selected place rest =>
    obtain ⟨donor, hdonor⟩ := isSome_iff_exists.mp (hthere place rest rfl)
    simp [resolve, LiveRoute.capture, hdonor, hback place donor hdonor]

theorem LiveRoute.capture_resolve_capture
    (hkept : ∀ donor place, placeOf donor = some place → (donorAt place).isSome)
    (hback : ∀ place donor, donorAt place = some donor →
      placeOf' donor = some place) (route : LiveRoute I P X) :
    ((route.capture placeOf).resolve donorAt).capture placeOf' = route.capture placeOf := by
  apply SavedRoute.capture_resolve hback
  intro place rest hselected
  cases route with
  | none | missing saved rest => cases hselected
  | selected donor saved rest =>
    rw [capture] at hselected
    split at hselected
    · cases hselected
    · next hplace =>
        cases hselected
        exact hkept donor _ hplace

end

structure RouteKind (I P X L S : Type) where
  live : L ≃ LiveRoute I P X
  saved : S ≃ SavedRoute P X

namespace RouteKind

variable (kind : RouteKind I P X L S)

def capture (placeOf : I → Option P) (route : L) : S :=
  kind.saved.symm ((kind.live route).capture placeOf)

def captureCached (route : L) : S := kind.saved.symm (kind.live route).captureCached

def resolve (donorAt : P → Option I) (saved : S) : L :=
  kind.live.symm ((kind.saved saved).resolve donorAt)

def unresolved (saved : S) : L := kind.live.symm (kind.saved saved).unresolved

def noneLive : L := kind.live.symm .none

def noneSaved : S := kind.saved.symm .none

def Follows (placeOf : I → Option P) (donorAt : P → Option I) (before after : L) : Prop :=
  (kind.live before).Follows placeOf donorAt (kind.live after)

/-- The route was last saved where its donor stands. -/
def CachedInPlace (placeOf : I → Option P) (route : L) : Prop :=
  (kind.live route).CachedInPlace placeOf

variable {placeOf placeOf' : I → Option P} {donorAt : P → Option I} {route : L}

theorem capture_eq_none_iff :
    kind.capture placeOf route = kind.noneSaved ↔ route = kind.noneLive := by
  simp only [capture, noneSaved, noneLive, Equiv.eq_symm_apply]
  cases kind.live route with
  | selected donor saved rest => simp [LiveRoute.capture]; split <;> simp
  | _ => simp [LiveRoute.capture]

theorem captureCached_eq_none_iff :
    kind.captureCached route = kind.noneSaved ↔ route = kind.noneLive := by
  simp only [captureCached, noneSaved, noneLive, Equiv.eq_symm_apply]
  cases kind.live route <;> simp [LiveRoute.captureCached]

theorem captureCached_eq_none (h : kind.capture placeOf route = kind.noneSaved)
    : kind.captureCached route = kind.noneSaved :=
  kind.captureCached_eq_none_iff.mpr (kind.capture_eq_none_iff.mp h)

theorem unresolved_eq_none_iff {saved : S} :
    kind.unresolved saved = kind.noneLive ↔ saved = kind.noneSaved := by
  simp only [unresolved, noneSaved, noneLive, Equiv.eq_symm_apply]
  cases kind.saved saved <;> simp [SavedRoute.unresolved]

variable (hkept : ∀ donor place, placeOf donor = some place → (donorAt place).isSome)
include hkept

theorem follows_resolve_capture (route : L) :
    kind.Follows placeOf donorAt route (kind.resolve donorAt (kind.capture placeOf route)) := by
  simpa [Follows, resolve, capture] using (kind.live route).follows_resolve_capture hkept

theorem capture_resolve_capture
    (hback : ∀ place donor, donorAt place = some donor → placeOf' donor = some place) (route : L) :
    kind.capture placeOf' (kind.resolve donorAt (kind.capture placeOf route)) =
      kind.capture placeOf route := by
  simp [resolve, capture, (kind.live route).capture_resolve_capture hkept hback]

theorem survives_cached_iff (route : L) :
    (kind.Follows placeOf donorAt route (kind.resolve donorAt (kind.captureCached route)) ∧
      kind.captureCached (kind.resolve donorAt (kind.captureCached route)) =
        kind.captureCached route) ↔
      kind.CachedInPlace placeOf route := by
  simpa [Follows, resolve, captureCached, CachedInPlace] using
    (kind.live route).survives_cached_iff hkept

end RouteKind

end CollideOScope
