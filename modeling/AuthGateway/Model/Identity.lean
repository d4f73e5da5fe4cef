import AuthGateway.Model.User

/-!
# Outside identities

The six columns of `users` that name an account at a provider, and what binding
does to a row.
-/

namespace AuthGateway.Model

/-- The providers of outside identities. -/
inductive Provider
  | gitHub
  | discord
  | oidc
  | weChat
  | telegram
  | linuxDO
deriving DecidableEq, Repr

namespace Provider

/-- The column of a provider. -/
def column : Provider → User → String
  | gitHub => User.gitHubId
  | discord => User.discordId
  | oidc => User.oidcId
  | weChat => User.weChatId
  | telegram => User.telegramId
  | linuxDO => User.linuxDOId

/-- The struct with an identity at a provider. -/
def bind (externalId : String) (u : User) : Provider → User
  | gitHub => { u with gitHubId := externalId }
  | discord => { u with discordId := externalId }
  | oidc => { u with oidcId := externalId }
  | weChat => { u with weChatId := externalId }
  | telegram => { u with telegramId := externalId }
  | linuxDO => { u with linuxDOId := externalId }

@[simp] theorem column_bind (externalId : String) (u : User) (p : Provider) :
    p.column (p.bind externalId u) = externalId := by
  cases p <;> rfl

theorem column_bind_of_ne {p q : Provider} (h : q ≠ p) (externalId : String) (u : User) :
    q.column (p.bind externalId u) = q.column u := by
  cases p <;> cases q <;> first | rfl | exact absurd rfl h

@[simp] theorem bind_id (externalId : String) (u : User) (p : Provider) :
    (p.bind externalId u).id = u.id := by
  cases p <;> rfl

/-- **Binding writes one column**, whether the struct that is saved holds the
whole row or the new identity alone. -/
theorem overlay_bind (externalId : String) (row : User) (p : Provider) :
    row.overlay (p.bind externalId row) = row.overlay (p.bind externalId {}) := by
  cases p <;> dsimp only [User.overlay, bind] <;> simp only [ite_self, if_true]

end Provider

end AuthGateway.Model
