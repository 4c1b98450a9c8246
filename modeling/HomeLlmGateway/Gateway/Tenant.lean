/-! # The default tenant

`gateway/src/tenant.rs`: the name that the store and the tunnel share. -/

namespace HomeLlmGateway.Gateway.Tenant

/-- `DEFAULT_TENANT_ID`. -/
def defaultTenantId : String := "default"

end HomeLlmGateway.Gateway.Tenant
