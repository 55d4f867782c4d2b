import SharpOauth.SignInDetour
import SharpOauth.ConsentBrowser
import SharpOauth.ClientAuthentication
import SharpOauth.CsrfGate
import SharpOauth.KeyRotation
import SharpOauth.RefreshIsolation
import SharpOauth.AuthorizationDecision
import SharpOauth.PkceChallenge
import SharpOauth.ScopeStorage
import SharpOauth.BasicCredentials
import SharpOauth.CookieReading
import SharpOauth.OpenTabs
import SharpOauth.SiteUrls
import SharpOauth.KeyNames
import SharpOauth.PasswordLimit
import SharpOauth.AccountRuns
import SharpOauth.FormResubmission
import SharpOauth.RedirectUris
import SharpOauth.PortalIsolation
import SharpOauth.RevocationRaces
import SharpOauth.UserInfo
import SharpOauth.SecretHiding
import SharpOauth.ApprovalUnion
