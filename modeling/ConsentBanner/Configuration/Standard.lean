import ConsentBanner.Configuration.Source

/-!
The configuration file that applies where no other is given.
-/

namespace ConsentBanner

/-- The settings of every environment, and what the environments for tests and for production change. -/
def standardSettings : String :=
"limits:
  max_width: 1920
  max_height: 1080
  max_components: 50
  max_nesting: 5
  max_text_length: 5000

defaults:
  minify: true
  include_google_consent_mode: true
  force_gdpr: false
  cookie_expiry: 365
  base_url: \"http://localhost:3000\"
  domain_id: \"\"
  language: \"en\"

cmp:
  cmp_id: 28
  cmp_version: 1
  tcf_policy_version: 4
  api_version: \"2.2\"
  publisher_cc: \"ES\"
  gvl_version: 3

environments:
  test:
    defaults:
      minify: false
  production:
    defaults:
      base_url: \"https://consent.example.com\"
"

/-- The source with the standard settings and nothing else. -/
def Source.standard : Source := { files := [("generator.yaml", standardSettings)] }

end ConsentBanner
