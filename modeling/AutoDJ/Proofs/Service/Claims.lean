import AutoDJ.Service.Builder

namespace AutoDJ

def Request.claims : Request → List CacheKind
  | buildCaches _ => []
  | deliver delivery => [delivery.kind]
  | fill .. => []

def Build.claims (build : Build σ) : List CacheKind :=
  match build.phase with
  | .scanning => build.kinds.toList
  | .posting deliveries => deliveries.map Delivery.kind
  | .yielding kinds => kinds

def Exchange.claims (exchange : Exchange) : List CacheKind :=
  exchange.inbox.messages.flatMap (·.payload.claims)

@[simp]
theorem Exchange.claims_request {exchange : Exchange} {id : UInt64} {request : Request} {uptime : Nat}
    : (exchange.request id request uptime).claims = exchange.claims ++ request.claims := by
  simp [claims, Exchange.request, Mailbox.push]

namespace Service

variable {σ ω : Type}

def claims (sv : Service σ ω) : List CacheKind :=
  sv.builds.flatMap Build.claims ++ sv.exchange.claims

def holders (sv : Service σ ω) (kind : CacheKind) : Nat :=
  sv.builds.countP (kind ∈ ·.claims)
    + sv.exchange.inbox.messages.countP (kind ∈ ·.payload.claims)

end Service

theorem countP_mem_eq_count_flatMap {α : Type} {f : α → List CacheKind} {kind : CacheKind}
    {xs : List α} (h : (xs.flatMap f).count kind ≤ 1)
    : xs.countP (kind ∈ f ·) = (xs.flatMap f).count kind := by
  induction xs with
  | nil => rfl
  | cons x xs ih =>
    rw [List.flatMap_cons, List.count_append] at *
    rw [List.countP_cons, ih (by omega)]
    by_cases hx : kind ∈ f x
    . have := List.count_pos_iff.mpr hx
      simp only [hx, decide_true, if_true]
      omega
    . have := List.count_eq_zero_of_not_mem hx
      simp only [hx, decide_false, Bool.false_eq_true, if_false]
      omega

theorem Service.holders_eq_count_claims {σ ω : Type} {sv : Service σ ω} {kind : CacheKind}
    (h : sv.claims.count kind ≤ 1) : sv.holders kind = sv.claims.count kind := by
  unfold holders
  unfold claims Exchange.claims at *
  rw [List.count_append] at *
  rw [countP_mem_eq_count_flatMap (by omega), countP_mem_eq_count_flatMap (by omega)]

end AutoDJ
